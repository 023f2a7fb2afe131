import MpcRegistry.Library.ReadCommitted
import MpcRegistry.Library.Outcome
import MpcRegistry.Library.Table
import MpcRegistry.Lifecycle.Guards

/-!
# Lifecycle transitions of projects

Source: apps/api/src/routes/lifecycle.ts, the part of a publication that registers a
project (apps/api/src/routes/registry.ts:280-320), the writers of facts and gate decisions
(apps/api/src/routes/project-parties.ts:120-215, readiness.ts:660-800) and
packages/db/migrations/0050_offering_lifecycle_guard.sql. Every session has a subject.
Left out is what can only refuse a request and which an abort stands for: authorization,
disclosure restrictions, the versions of facts and the checks of evidence and signatures.
-/
namespace MpcRegistry.Lifecycle
open Library ReadCommitted AtLifecycleState

/-! ## Tables -/

/-- `core.projects` -/
structure Project where
  id : Uuid
  tenantId : Uuid
  lifecycleState : AtLifecycleState
  priorLifecycleState : Option AtLifecycleState
  suspendedBySubjectId : Option Uuid
  version : Nat
  deriving DecidableEq, Repr

inductive ConfirmationStatus where
  | confirmed | pending | rejected | notApplicable
  deriving DecidableEq, Repr

/-- `core.project_facts` -/
structure ProjectFact where
  tenantId : Uuid
  projectId : Uuid
  factKey : Text
  status : ConfirmationStatus
  evidenceRef : Option Uuid
  deriving DecidableEq, Repr

/-- `UNIQUE (project_id, fact_key)` -/
def ProjectFact.key (fact : ProjectFact) : Uuid × Text := (fact.projectId, fact.factKey)

/-- `core.gate_decisions` -/
structure GateDecision where
  tenantId : Uuid
  projectId : Uuid
  gateId : Text
  decision : GateDecisionValue
  signedAt : Nat
  createdAt : Nat
  deriving DecidableEq, Repr

/-- `core.project_lifecycle_transitions` -/
structure LifecycleTransition where
  tenantId : Uuid
  projectId : Uuid
  fromState : AtLifecycleState
  toState : AtLifecycleState
  reason : Text
  actorSubjectId : Uuid
  occurredAt : Nat
  deriving DecidableEq, Repr

/-- A claim, a step of a verification case or a readiness assessment, with its time. -/
structure ReviewActivity where
  tenantId : Uuid
  projectId : Uuid
  recordedAt : Nat
  deriving DecidableEq, Repr

structure Db where
  projects : Table Project.id
  facts : Table ProjectFact.key
  decisions : List GateDecision
  /-- In the order of their commits. -/
  transitions : List LifecycleTransition
  reviews : List ReviewActivity
  now : Nat

def Db.empty (now : Nat) : Db := ⟨.empty, .empty, [], [], [], now⟩

/-! ## Requests -/

structure CreateRequest where
  tenantId : Uuid

structure FactRequest where
  tenantId : Uuid
  projectId : Uuid
  factKey : Text
  status : ConfirmationStatus
  evidence : Option Uuid

structure DecisionRequest where
  tenantId : Uuid
  projectId : Uuid
  gateId : Text
  decision : GateDecisionValue

structure PublishRequest where
  tenantId : Uuid
  projectId : Uuid
  publisher : Uuid

structure TransitionRequest where
  tenantId : Uuid
  projectId : Uuid
  toState : AtLifecycleState
  reason : Text
  expectedVersion : Nat
  actor : Uuid

inductive Request where
  | create (request : CreateRequest)
  | recordFact (request : FactRequest)
  | decide (request : DecisionRequest)
  | publish (request : PublishRequest)
  | transition (request : TransitionRequest)

inductive Refusal where
  | notFound
  | versionMismatch (expected current : Nat)
  | transitionNotAllowed (source target : AtLifecycleState) (allowed : List AtLifecycleState)
  | resumeTargetInvalid (priorState : Option AtLifecycleState) (requested : AtLifecycleState)
  | resumeSelf
  | guardUnmet (code : GuardCode) (source target : AtLifecycleState)
      (conditions : List LifecycleCondition) (unsupported : List Text)
  /-- The trigger of 0050 raised. -/
  | offeringConditionsUnmet
  | checkViolation
  | uniqueViolation
  | outOfTurn

def Refusal.code : Refusal → Option Text
  | .notFound => some (units "NOT_FOUND")
  | .versionMismatch .. => some (units "RESOURCE_VERSION_MISMATCH")
  | .transitionNotAllowed .. => some (units "LIFECYCLE_TRANSITION_NOT_ALLOWED")
  | .resumeTargetInvalid .. => some (units "LIFECYCLE_RESUME_TARGET_INVALID")
  | .resumeSelf => some (units "LIFECYCLE_RESUME_SELF")
  | .guardUnmet .lifecycleGuardUnmet .. => some (units "LIFECYCLE_GUARD_UNMET")
  | .guardUnmet .lifecycleRegisterViaPublication .. =>
    some (units "LIFECYCLE_REGISTER_VIA_PUBLICATION")
  | .offeringConditionsUnmet | .checkViolation | .uniqueViolation | .outOfTurn => none

/-! ## What the guards read -/

/-- `OFFERING_GATE_ID` -/
def offeringGateId : Text := units "offering_activation"

/-- `ORDER BY signed_at DESC, created_at DESC LIMIT 1` -/
def latestOf (rows : List GateDecision) : Option GateDecision :=
  (rows.insertionSort fun a b =>
    toLex (b.signedAt, b.createdAt) ≤ toLex (a.signedAt, a.createdAt)).head?

namespace Db

def projectById (db : Db) (tenantId id : Uuid) : Option Project :=
  (db.projects.lookup id).filter (·.tenantId = tenantId)

/-- The statuses that `checkOfferingGate` is asked about. -/
def preconditionStatuses (db : Db) (tenantId projectId : Uuid) : List PreconditionStatus :=
  (db.facts.rows.filter fun fact => fact.tenantId = tenantId ∧ fact.projectId = projectId).map
    fun fact => ⟨fact.factKey, fact.status = .confirmed, fact.evidenceRef⟩

def latestOfferingDecision (db : Db) (tenantId projectId : Uuid) : Option GateDecisionValue :=
  (latestOf (db.decisions.filter fun row => row.tenantId = tenantId ∧ row.projectId = projectId ∧
    row.gateId = offeringGateId)).map (·.decision)

/-- When the project was last suspended. -/
def suspendedAt (db : Db) (tenantId projectId : Uuid) : Option Nat :=
  ((db.transitions.filter fun row => row.tenantId = tenantId ∧ row.projectId = projectId ∧
    row.toState = suspended).map (·.occurredAt)).max?

def reviewedSinceSuspension (db : Db) (tenantId projectId : Uuid) (source : AtLifecycleState) :
    Option Bool :=
  if source = suspended then
    (db.suspendedAt tenantId projectId).map fun since =>
      (db.reviews.any fun row =>
        row.tenantId = tenantId ∧ row.projectId = projectId ∧ since < row.recordedAt) ||
      db.decisions.any fun row =>
        row.tenantId = tenantId ∧ row.projectId = projectId ∧ since < row.createdAt
  else some false

def readGuardFacts (db : Db) (tenantId projectId : Uuid) (source : AtLifecycleState) :
    LifecycleGuardFacts where
  offeringGate := checkOfferingGate (db.preconditionStatuses tenantId projectId)
  latestOfferingDecision := db.latestOfferingDecision tenantId projectId
  reviewedSinceSuspension := db.reviewedSinceSuspension tenantId projectId source

/-! ## The trigger -/

/-- `count(DISTINCT fact_key)` of the confirmed preconditions with evidence. -/
def evidencedCount (db : Db) (projectId : Uuid) : Nat :=
  ((db.facts.rows.filter fun fact => fact.projectId = projectId ∧ fact.status = .confirmed ∧
    fact.evidenceRef.isSome ∧ fact.factKey ∈ offeringKeys).map (·.factKey)).dedup.length

/-- `guard_offering_lifecycle`: whether it lets the row pass. -/
def guardOfferingLifecycle (db : Db) (projectId : Uuid) (old : Option AtLifecycleState)
    (new : AtLifecycleState) : Bool :=
  new ∉ offeringFamily || old = some new ||
    (7 ≤ db.evidencedCount projectId &&
      (latestOf (db.decisions.filter fun row =>
        row.projectId = projectId ∧ row.gateId = offeringGateId)).map (·.decision) = some .go)

end Db

/-! ## Writes -/

def CreateRequest.row (request : CreateRequest) (id : Uuid) : Project where
  id
  tenantId := request.tenantId
  lifecycleState := draft
  priorLifecycleState := none
  suspendedBySubjectId := none
  version := 1

def FactRequest.row (request : FactRequest) : ProjectFact where
  tenantId := request.tenantId
  projectId := request.projectId
  factKey := request.factKey
  status := request.status
  evidenceRef := request.evidence

/-- What `ON CONFLICT DO UPDATE` sets. -/
def FactRequest.apply (request : FactRequest) (fact : ProjectFact) : ProjectFact :=
  { fact with status := request.status, evidenceRef := request.evidence }

theorem FactRequest.apply_key (request : FactRequest) (fact : ProjectFact) :
    (request.apply fact).key = fact.key := rfl

/-- The upsert of a fact. -/
def FactRequest.upsert (request : FactRequest) (facts : Table ProjectFact.key) :
    Table ProjectFact.key :=
  (facts.update (·.key = request.row.key) request.apply request.apply_key).insertIfAbsent
    request.row

def DecisionRequest.row (request : DecisionRequest) (startedAt : Nat) : GateDecision where
  tenantId := request.tenantId
  projectId := request.projectId
  gateId := request.gateId
  decision := request.decision
  signedAt := startedAt
  createdAt := startedAt

/-- What the UPDATE of a transition writes. -/
def TransitionRequest.apply (request : TransitionRequest) (source : AtLifecycleState)
    (project : Project) : Project :=
  { project with
    lifecycleState := request.toState
    priorLifecycleState := if request.toState = suspended then some source else none
    suspendedBySubjectId := if request.toState = suspended then some request.actor else none
    version := project.version + 1 }

def TransitionRequest.entry (request : TransitionRequest) (startedAt : Nat)
    (source : AtLifecycleState) : LifecycleTransition where
  tenantId := request.tenantId
  projectId := request.projectId
  fromState := source
  toState := request.toState
  reason := request.reason
  actorSubjectId := request.actor
  occurredAt := startedAt

/-- What a publication writes into a draft project. -/
def Project.register (project : Project) : Project :=
  { project with lifecycleState := registered, version := project.version + 1 }

def PublishRequest.entry (request : PublishRequest) (startedAt : Nat) : LifecycleTransition where
  tenantId := request.tenantId
  projectId := request.projectId
  fromState := draft
  toState := registered
  reason := units "Project Registry publication satisfied the 04 §4.3 guard"
  actorSubjectId := request.publisher
  occurredAt := startedAt

/-- The constraint `prior_state_only_when_suspended`. -/
def Project.wellFormed (project : Project) : Bool :=
  decide (project.lifecycleState = suspended) == project.priorLifecycleState.isSome

/-! ## Transactions -/

/-- `row` is a lock of a project row, `key` that of its key: FOR UPDATE takes both
exclusively, an UPDATE only the row, and a reference to the project shares its key. -/
inductive Lock where
  | row (projectId : Uuid)
  | key (projectId : Uuid)
  | fact (projectId : Uuid) (factKey : Text)
  deriving DecidableEq, Repr

/-- A transition and the row that it has locked. -/
structure Transition where
  request : TransitionRequest
  startedAt : Nat
  project : Project

def Transition.source (transition : Transition) : AtLifecycleState :=
  transition.project.lifecycleState

def Transition.change (transition : Transition) : Project → Project :=
  transition.request.apply transition.source

def Transition.entry (transition : Transition) : LifecycleTransition :=
  transition.request.entry transition.startedAt transition.source

/-- What a request has read and written so far. -/
inductive Point where
  | idle
  | creating (request : CreateRequest)
  | created (project : Project)
  | recordingFact (request : FactRequest)
  | factLocked (request : FactRequest)
  | factReferenced (request : FactRequest)
  | deciding (request : DecisionRequest) (startedAt : Nat)
  | decided (row : GateDecision)
  | publishing (request : PublishRequest) (startedAt : Nat)
  | registering (request : PublishRequest) (startedAt : Nat) (project : Project)
  | unmoved
  | begun (request : TransitionRequest) (startedAt : Nat)
  | locked (transition : Transition)
  | factsRead (transition : Transition) (gate : OfferingGateDecision)
  | decisionRead (transition : Transition) (gate : OfferingGateDecision)
      (latest : Option GateDecisionValue)
  | guarded (transition : Transition)
  | updated (transition : Transition)

/-- What a statement is told: the request an idle worker takes up, the id that
`randomUUID` gives, and from outside the review activity and the time that passes. -/
structure Given where
  request : Request
  uuid : Uuid
  activity : Option ReviewActivity
  time : Nat

/-- The checks of a transition on the row it has locked. -/
def TransitionRequest.admit (request : TransitionRequest) (startedAt : Nat) (project : Project) :
    Except Refusal Transition :=
  let source := project.lifecycleState
  if request.expectedVersion ≠ project.version then
    .error (.versionMismatch request.expectedVersion project.version)
  else if request.toState ∉ source.transitions then
    .error (.transitionNotAllowed source request.toState source.transitions)
  else if source = suspended ∧
      resumeFromSuspension (project.priorLifecycleState.getD draft) request.toState = false then
    .error (.resumeTargetInvalid project.priorLifecycleState request.toState)
  else if source = suspended ∧ project.suspendedBySubjectId = some request.actor then
    .error .resumeSelf
  else .ok ⟨request, startedAt, project⟩

def Transition.locks (transition : Transition) : List (Lock × LockMode) :=
  [(.row transition.project.id, .exclusive), (.key transition.project.id, .exclusive)]

namespace Point

def next (db : Db) (given : Given) : Point → Except Refusal Point
  | idle =>
    match given.request with
    | .create request => .ok (creating request)
    | .recordFact request => .ok (recordingFact request)
    | .decide request => .ok (deciding request db.now)
    | .publish request => .ok (publishing request db.now)
    | .transition request => .ok (begun request db.now)
  | creating request =>
    if ∃ project ∈ db.projects.rows, project.id = given.uuid then .error .uniqueViolation
    else .ok (created (request.row given.uuid))
  | created _ => .error .outOfTurn
  | recordingFact request => .ok (factLocked request)
  | factLocked request =>
    match db.projectById request.tenantId request.projectId with
    | none => .error .notFound
    | some _ =>
      if request.status = .confirmed ∧ request.evidence = none then .error .checkViolation
      else .ok (factReferenced request)
  | factReferenced _ => .error .outOfTurn
  | deciding request startedAt =>
    match db.projectById request.tenantId request.projectId with
    | none => .error .notFound
    | some _ => .ok (decided (request.row startedAt))
  | decided _ => .error .outOfTurn
  | publishing request startedAt =>
    match db.projectById request.tenantId request.projectId with
    | none => .ok unmoved
    | some project =>
      if project.lifecycleState = draft then .ok (registering request startedAt project)
      else .ok unmoved
  | registering .. => .error .outOfTurn
  | unmoved => .error .outOfTurn
  | begun request startedAt =>
    match db.projectById request.tenantId request.projectId with
    | none => .error .notFound
    | some project => ( request.admit startedAt project).map locked
  | locked transition =>
    .ok (factsRead transition (checkOfferingGate
      (db.preconditionStatuses transition.request.tenantId transition.project.id)))
  | factsRead transition gate =>
    .ok (decisionRead transition gate
      (db.latestOfferingDecision transition.request.tenantId transition.project.id))
  | decisionRead transition gate latest =>
    match checkLifecycleGuard transition.source transition.request.toState ⟨gate, latest,
      db.reviewedSinceSuspension transition.request.tenantId transition.project.id
        transition.source⟩ with
    | .allowed => .ok (guarded transition)
    | .refused code conditions unsupported =>
      .error (.guardUnmet code transition.source transition.request.toState conditions unsupported)
  | guarded transition =>
    if db.guardOfferingLifecycle transition.project.id (some transition.source)
        transition.request.toState = false then .error .offeringConditionsUnmet
    else if (transition.change transition.project).wellFormed = false then .error .checkViolation
    else .ok (updated transition)
  | updated _ => .error .outOfTurn

def effect : Point → Option (Db → Db)
  | created project => some fun db => { db with projects := db.projects.insertIfAbsent project }
  | factReferenced request => some fun db => { db with facts := request.upsert db.facts }
  | decided row => some fun db => { db with decisions := db.decisions ++ [row] }
  | registering request startedAt project => some fun db =>
    { db with
      projects := db.projects.update (·.id = project.id) Project.register fun _ => rfl
      transitions := db.transitions ++ [request.entry startedAt] }
  | unmoved => some id
  | updated transition => some fun db =>
    { db with
      projects := db.projects.update (·.id = transition.project.id) transition.change fun _ => rfl
      transitions := db.transitions ++ [transition.entry] }
  | _ => none

def locks : Point → List (Lock × LockMode)
  | created project => [(.row project.id, .exclusive), (.key project.id, .exclusive)]
  | factLocked request => [(.fact request.projectId request.factKey, .exclusive)]
  | factReferenced request =>
    [(.fact request.projectId request.factKey, .exclusive), (.key request.projectId, .share)]
  | decided row => [(.key row.projectId, .share)]
  | registering _ _ project => [(.row project.id, .exclusive)]
  | locked transition => transition.locks
  | factsRead transition _ => transition.locks
  | decisionRead transition _ _ => transition.locks
  | guarded transition => transition.locks
  | updated transition => transition.locks
  | _ => []

end Point

def lifecycle : Protocol Db Point Given Refusal Lock where
  idle := .idle
  statement db point given := point.next db given
  effect := Point.effect
  locks := Point.locks
  outside db given :=
    some { db with reviews := db.reviews ++ given.activity.toList, now := db.now + given.time }
  locks_idle := rfl

def StartsEmpty (db : Db) : Prop := ∃ now, db = Db.empty now

/-- Any number of workers over tables that start empty. -/
abbrev lifecycleSystem (W : Type) [DecidableEq W] : System (State W Db Point) (Action W Given) :=
  lifecycle.system StartsEmpty

end MpcRegistry.Lifecycle
