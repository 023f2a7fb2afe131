import MpcRegistry.Library.ReadCommitted
import MpcRegistry.Library.Outcome
import MpcRegistry.Library.Table
import MpcRegistry.Library.Utf16

/-!
# Disclosure restrictions and guarded actions

Source: apps/api/src/routes/disclosure-restrictions.ts, apps/api/src/restrictions.ts:39-105,
packages/domain/src/disclosure.ts:221-236, the machine of packages/domain/src/machines.ts and
packages/db/migrations/0059_disclosure_restriction_lifecycle.sql. What a guarded action
does besides is left out; so are authorization and the project's existence, which can
only refuse a request and which an abort stands for. Blocked attempts are recorded in
a transaction of their own that writes no restriction.
-/
namespace MpcRegistry.Disclosure
open Library ReadCommitted Utf16

abbrev Uuid := Nat

inductive RestrictionState where
  | draft | active | released | superseded
  deriving DecidableEq, Repr

/-- `disclosureRestrictionMachine.transitions` -/
def RestrictionState.transitions : RestrictionState → List RestrictionState
  | draft => [active, superseded]
  | active => [released, superseded]
  | released => []
  | superseded => []

def canTransition (source target : RestrictionState) : Bool := target ∈ source.transitions

structure ReleaseRecord where
  disclosureReference : Text
  legalCondition : Text
  reason : Text
  recordedBy : Uuid
  recordedAt : Nat
  deriving DecidableEq, Repr

/-- `core.disclosure_restrictions` -/
structure Restriction where
  id : Uuid
  tenantId : Uuid
  projectId : Uuid
  subjectScope : List Uuid
  restrictedActionTypes : List Text
  materialInfoRef : Text
  reason : Text
  legalBasis : Text
  authority : Text
  state : RestrictionState
  effectiveAt : Option Nat
  expectedNextUpdateAt : Option Nat
  createdBy : Uuid
  activatedBy : Option Uuid
  releasedAt : Option Nat
  releasedBy : Option Uuid
  releaseRecord : Option ReleaseRecord
  supersededById : Option Uuid
  version : Nat
  deriving DecidableEq, Repr

inductive EventKind where
  | created | activated | released | superseded
  deriving DecidableEq, Repr

/-- `core.disclosure_restriction_events`, but for blocked attempts. -/
structure RestrictionEvent where
  id : Uuid
  tenantId : Uuid
  restrictionId : Uuid
  projectId : Uuid
  eventKind : EventKind
  actorSubjectId : Uuid
  reason : Text
  deriving DecidableEq, Repr

inductive TransitionKind where
  | activate | release | supersede
  deriving DecidableEq, Repr

/-- `TARGET` -/
def TransitionKind.target : TransitionKind → RestrictionState
  | activate => .active
  | release => .released
  | supersede => .superseded

def TransitionKind.eventKind : TransitionKind → EventKind
  | activate => .activated
  | release => .released
  | supersede => .superseded

/-! ## Requests -/

structure CreateRequest where
  tenantId : Uuid
  projectId : Uuid
  subjectScope : List Uuid
  restrictedActionTypes : List Text
  materialInfoRef : Text
  reason : Text
  legalBasis : Text
  authority : Text
  expectedNextUpdateAt : Option Nat
  actor : Uuid

structure TransitionRequest where
  tenantId : Uuid
  restrictionId : Uuid
  kind : TransitionKind
  expectedVersion : Nat
  reason : Text
  disclosureReference : Text
  legalCondition : Text
  supersededById : Option Uuid
  actor : Uuid

/-- An action of `RESTRICTABLE_ACTION_TYPES` on a project. -/
structure GuardedAction where
  tenantId : Uuid
  projectId : Uuid
  action : Text
  actorSubjectId : Option Uuid
  deriving DecidableEq, Repr

inductive Request where
  | create (request : CreateRequest)
  | transition (request : TransitionRequest)
  | act (action : GuardedAction)

inductive Refusal where
  | notFound
  | versionMismatch (expected current : Nat)
  | transitionNotAllowed (source target : RestrictionState)
  | replacementInvalid
  | disclosureRestricted (restrictionId : Uuid) (reason authority : Text)
      (effectiveAt expectedNextUpdateAt : Option Nat)
  /-- A constraint or a trigger refused a row. -/
  | checkViolation
  | uniqueViolation
  | outOfTurn

def Refusal.code : Refusal → Option Text
  | .notFound => some (units "NOT_FOUND")
  | .versionMismatch .. => some (units "RESOURCE_VERSION_MISMATCH")
  | .transitionNotAllowed .. => some (units "RESTRICTION_TRANSITION_NOT_ALLOWED")
  | .replacementInvalid => some (units "RESTRICTION_REPLACEMENT_INVALID")
  | .disclosureRestricted .. => some (units "DISCLOSURE_RESTRICTED")
  | .checkViolation | .uniqueViolation | .outOfTurn => none

structure Db where
  restrictions : Table Restriction.id
  events : Table RestrictionEvent.id
  /-- The guarded actions that were committed, in their order. -/
  performed : List GuardedAction
  now : Nat

def Db.empty (now : Nat) : Db := ⟨.empty, .empty, [], now⟩

/-! ## The check of a guarded action -/

/-- `checkRestrictedAction` -/
def checkRestrictedAction (restrictions : List Restriction) (subjectId : Uuid)
    (actionType : Text) : Option Restriction :=
  restrictions.find? fun restriction =>
    restriction.state = .active && restriction.subjectScope.contains subjectId &&
      restriction.restrictedActionTypes.contains actionType

/-- `ORDER BY effective_at, id`, where a missing time comes last. -/
def Restriction.before (a b : Restriction) : Bool :=
  match a.effectiveAt, b.effectiveAt with
  | some x, some y => x < y || (x == y && a.id ≤ b.id)
  | some _, none => true
  | none, some _ => false
  | none, none => a.id ≤ b.id

def Db.activeRestrictions (db : Db) (tenantId projectId : Uuid) : List Restriction :=
  (db.restrictions.rows.filter fun row =>
    row.tenantId = tenantId ∧ row.projectId = projectId ∧ row.state = .active).insertionSort
      fun a b => a.before b

/-- The project, and the actor when there is one. -/
def GuardedAction.subjects (action : GuardedAction) : List Uuid :=
  match action.actorSubjectId with
  | some actor => [action.projectId, actor]
  | none => [action.projectId]

/-- The first restriction that covers one of the subjects. -/
def Db.restricting (db : Db) (action : GuardedAction) : Option Restriction :=
  action.subjects.findSome? fun subject =>
    checkRestrictedAction (db.activeRestrictions action.tenantId action.projectId) subject
      action.action

/-- `assertActionNotRestricted`, past its lock. -/
def Db.assertActionNotRestricted (db : Db) (action : GuardedAction) : Except Refusal Unit :=
  match db.restricting action with
  | none => .ok ()
  | some row =>
    .error (.disclosureRestricted row.id row.reason row.authority row.effectiveAt
      row.expectedNextUpdateAt)

/-! ## Transitions -/

/-- What the UPDATE of a transition writes. -/
def TransitionRequest.apply (request : TransitionRequest) (startedAt recordedAt : Nat)
    (supersededById : Option Uuid) (row : Restriction) : Restriction :=
  { row with
    state := request.kind.target
    effectiveAt := if request.kind = .activate then some startedAt else row.effectiveAt
    activatedBy := if request.kind = .activate then some request.actor else row.activatedBy
    releasedAt := if request.kind = .release then some startedAt else row.releasedAt
    releasedBy := if request.kind = .release then some request.actor else row.releasedBy
    releaseRecord :=
      if request.kind = .release then
        some {
          disclosureReference := request.disclosureReference
          legalCondition := request.legalCondition
          reason := request.reason
          recordedBy := request.actor
          recordedAt }
      else row.releaseRecord
    supersededById := if request.kind = .supersede then supersededById else row.supersededById
    version := row.version + 1 }

/-- The trigger `guard_disclosure_restriction`. -/
def guardDisclosureRestriction (old new : Restriction) : Bool :=
  (new.state = old.state || canTransition old.state new.state) &&
    (old.state = .draft || (new.projectId = old.projectId && new.subjectScope = old.subjectScope &&
      new.restrictedActionTypes = old.restrictedActionTypes && new.legalBasis = old.legalBasis &&
      new.authority = old.authority && new.materialInfoRef = old.materialInfoRef))

/-- The CHECK constraints of a row. -/
def Restriction.wellFormed (row : Restriction) : Bool :=
  (row.state != .released ||
      (row.releasedBy.isSome && row.releaseRecord.isSome && row.releasedAt.isSome)) &&
    (row.state != .active || row.effectiveAt.isSome)

def Db.restrictionById (db : Db) (tenantId id : Uuid) : Option Restriction :=
  (db.restrictions.lookup id).filter (·.tenantId = tenantId)

/-- `resolveReplacement` -/
def Db.resolveReplacement (db : Db) (request : TransitionRequest) (current : Restriction) :
    Except Refusal (Option Uuid) :=
  match request.kind, request.supersededById with
  | .supersede, some id =>
    match db.restrictionById request.tenantId id with
    | none => .error .replacementInvalid
    | some replacement =>
      if replacement.projectId ≠ current.projectId ∨ id = current.id then .error .replacementInvalid
      else .ok (some id)
  | _, _ => .ok none

/-- The draft an INSERT makes; the states and the version are the defaults. -/
def CreateRequest.row (request : CreateRequest) (id : Uuid) : Restriction where
  id
  tenantId := request.tenantId
  projectId := request.projectId
  subjectScope := request.subjectScope
  restrictedActionTypes := request.restrictedActionTypes.eraseDups
  materialInfoRef := request.materialInfoRef
  reason := request.reason
  legalBasis := request.legalBasis
  authority := request.authority
  state := .draft
  effectiveAt := none
  expectedNextUpdateAt := request.expectedNextUpdateAt
  createdBy := request.actor
  activatedBy := none
  releasedAt := none
  releasedBy := none
  releaseRecord := none
  supersededById := none
  version := 1

/-- `recordEvent` -/
def recordEvent (id : Uuid) (row : Restriction) (kind : EventKind) (actor : Uuid) (reason : Text) :
    RestrictionEvent where
  id
  tenantId := row.tenantId
  restrictionId := row.id
  projectId := row.projectId
  eventKind := kind
  actorSubjectId := actor
  reason

/-! ## Transactions -/

inductive Lock where
  | project (tenantId projectId : Uuid)
  | restriction (id : Uuid)
  | event (id : Uuid)
  deriving DecidableEq, Repr

/-- A transition with all it needs for its UPDATE. -/
structure Transition where
  request : TransitionRequest
  startedAt : Nat
  projectId : Uuid
  current : Restriction
  supersededById : Option Uuid
  recordedAt : Nat

def Transition.change (transition : Transition) : Restriction → Restriction :=
  transition.request.apply transition.startedAt transition.recordedAt transition.supersededById

/-- The row that the UPDATE returns. -/
def Transition.row (transition : Transition) : Restriction := transition.change transition.current

/-- What a request has read and written so far. -/
inductive Point where
  | idle
  | creating (request : CreateRequest)
  | inserted (request : CreateRequest) (row : Restriction)
  | createRecorded (row : Restriction) (event : RestrictionEvent)
  | begun (request : TransitionRequest) (startedAt : Nat)
  | targetRead (request : TransitionRequest) (startedAt : Nat) (projectId : Uuid)
  | projectLocked (request : TransitionRequest) (startedAt : Nat) (projectId : Uuid)
  | rowLocked (request : TransitionRequest) (startedAt : Nat) (projectId : Uuid)
      (current : Restriction)
  | replacementRead (request : TransitionRequest) (startedAt : Nat) (projectId : Uuid)
      (current : Restriction) (supersededById : Option Uuid)
  | updated (transition : Transition)
  | recorded (transition : Transition) (event : RestrictionEvent)
  | acting (action : GuardedAction)
  | actionLocked (action : GuardedAction)
  | actionChecked (action : GuardedAction)

/-- What a statement is told: the request an idle worker takes up, the id that
`randomUUID` gives and the time that passes or is read. -/
structure Given where
  request : Request
  uuid : Uuid
  time : Nat

def Transition.locks (transition : Transition) : List (Lock × LockMode) :=
  [(.project transition.request.tenantId transition.projectId, .exclusive),
    (.restriction transition.current.id, .exclusive)]

namespace Point

def next (db : Db) (given : Given) : Point → Except Refusal Point
  | idle =>
    match given.request with
    | .create request => .ok (creating request)
    | .transition request => .ok (begun request db.now)
    | .act action => .ok (acting action)
  | creating request =>
    if ∃ row ∈ db.restrictions.rows, row.id = given.uuid then .error .uniqueViolation
    else .ok (inserted request (request.row given.uuid))
  | inserted request row =>
    if ∃ event ∈ db.events.rows, event.id = given.uuid then .error .uniqueViolation
    else .ok (createRecorded row (recordEvent given.uuid row .created request.actor request.reason))
  | createRecorded _ _ => .error .outOfTurn
  | begun request startedAt =>
    match db.restrictionById request.tenantId request.restrictionId with
    | none => .error .notFound
    | some target => .ok (targetRead request startedAt target.projectId)
  | targetRead request startedAt projectId => .ok (projectLocked request startedAt projectId)
  | projectLocked request startedAt projectId =>
    match db.restrictionById request.tenantId request.restrictionId with
    | none => .error .notFound
    | some current =>
      if request.expectedVersion ≠ current.version then
        .error (.versionMismatch request.expectedVersion current.version)
      else if canTransition current.state request.kind.target = false then
        .error (.transitionNotAllowed current.state request.kind.target)
      else .ok (rowLocked request startedAt projectId current)
  | rowLocked request startedAt projectId current =>
    (db.resolveReplacement request current).map (replacementRead request startedAt projectId current)
  | replacementRead request startedAt projectId current supersededById =>
    let transition := ⟨request, startedAt, projectId, current, supersededById, given.time⟩
    if guardDisclosureRestriction current transition.row = false ∨
        transition.row.wellFormed = false then
      .error .checkViolation
    else .ok (updated transition)
  | updated transition =>
    if ∃ event ∈ db.events.rows, event.id = given.uuid then .error .uniqueViolation
    else .ok (recorded transition (recordEvent given.uuid transition.row
      transition.request.kind.eventKind transition.request.actor transition.request.reason))
  | recorded _ _ => .error .outOfTurn
  | acting action => .ok (actionLocked action)
  | actionLocked action => (db.assertActionNotRestricted action).map fun _ => actionChecked action
  | actionChecked _ => .error .outOfTurn

def effect : Point → Option (Db → Db)
  | createRecorded row event => some fun db =>
    { db with
      restrictions := db.restrictions.insertIfAbsent row
      events := db.events.insertIfAbsent event }
  | recorded transition event => some fun db =>
    { db with
      restrictions := db.restrictions.update (·.id = transition.current.id) transition.change
        fun _ => rfl
      events := db.events.insertIfAbsent event }
  | actionChecked action => some fun db => { db with performed := db.performed ++ [action] }
  | _ => none

/-- Advisory locks of a project, row locks and the keys of rows not yet committed. -/
def locks : Point → List (Lock × LockMode)
  | inserted _ row => [(.restriction row.id, .exclusive)]
  | createRecorded row event => [(.restriction row.id, .exclusive), (.event event.id, .exclusive)]
  | projectLocked request _ projectId => [(.project request.tenantId projectId, .exclusive)]
  | rowLocked request _ projectId current =>
    [(.project request.tenantId projectId, .exclusive), (.restriction current.id, .exclusive)]
  | replacementRead request _ projectId current _ =>
    [(.project request.tenantId projectId, .exclusive), (.restriction current.id, .exclusive)]
  | updated transition => transition.locks
  | recorded transition event => (.event event.id, .exclusive) :: transition.locks
  | actionLocked action => [(.project action.tenantId action.projectId, .exclusive)]
  | actionChecked action => [(.project action.tenantId action.projectId, .exclusive)]
  | _ => []

end Point

def disclosure : Protocol Db Point Given Refusal Lock where
  idle := .idle
  statement db point given := point.next db given
  effect := Point.effect
  locks := Point.locks
  outside db given := some { db with now := db.now + given.time }
  locks_idle := rfl

def StartsEmpty (db : Db) : Prop := ∃ now, db = Db.empty now

/-- Any number of workers over tables that start empty. -/
abbrev disclosureSystem (W : Type) [DecidableEq W] : System (State W Db Point) (Action W Given) :=
  disclosure.system StartsEmpty

end MpcRegistry.Disclosure
