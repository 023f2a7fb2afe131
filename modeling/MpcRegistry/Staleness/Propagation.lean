import MpcRegistry.Library.Outcome
import MpcRegistry.Library.Table
import MpcRegistry.Library.Transition
import MpcRegistry.Library.Utf16

/-!
# What goes stale, and what is told of it

Source: packages/db/migrations/0023_stale_propagation.sql:90-121, 0024_stale_signals.sql,
0051_credential_change_propagation.sql, 0052_schema_policy_change_propagation.sql,
0056_registry_publication_drafts.sql:193-245, the machines of packages/domain/src, the
routes of apps/api/src/routes/verification.ts, verification-corrections.ts and
stale-signals.ts, and services/attestation-basis.ts:254-291. Requests of one tenant are
taken one after another. What only refuses a request is left out: authorization, versions,
signatures and the authority basis. So are suspension proposals, which have a target of
their own. No route activates a signed attestation; it becomes active when its last dispute
is dismissed.
-/
namespace MpcRegistry.Staleness
open Library Utf16

abbrev Uuid := Nat
abbrev Instant := Nat

/-! ## Rows -/

/-- `core.claims` -/
structure Claim where
  id : Uuid
  staleSince : Option Instant
  deriving DecidableEq, Repr

inductive CredentialStatus where
  | valid | expired | revoked | suspended | unknown
  deriving DecidableEq, Repr

/-- `core.credentials` -/
structure Credential where
  id : Uuid
  currentStatus : CredentialStatus
  expiresAt : Option Instant
  revokedAt : Option Instant
  /-- Not stored: when the date of expiry was last given. -/
  datedAt : Instant
  deriving DecidableEq, Repr

inductive SchemaState where
  | draft | approved | active | superseded | retired
  deriving DecidableEq, Repr

/-- `core.attestation_schemas` -/
structure Schema where
  id : Uuid
  schemaKey : Text
  schemaVersion : Text
  jurisdictionProfile : Text
  state : SchemaState
  /-- Not stored: when it was last superseded or retired. -/
  endedAt : Option Instant
  deriving DecidableEq, Repr

inductive PolicyState where
  | draft | approved | effective | superseded | retired
  deriving DecidableEq, Repr

/-- `core.compliance_policy_sets` -/
structure PolicySet where
  id : Uuid
  ruleSetId : Text
  ruleSetVersion : Text
  jurisdictionProfile : Text
  effectiveFrom : Instant
  state : PolicyState
  /-- Not stored: when it was last superseded or retired. -/
  endedAt : Option Instant
  deriving DecidableEq, Repr

/-- `core.verification_cases` with `core.verification_case_claims` -/
structure Case where
  id : Uuid
  projectId : Uuid
  schemaId : Uuid
  claimIds : List Uuid
  deriving DecidableEq, Repr

inductive AttestationState where
  | draft | signed | active | staleCandidate | superseded | revoked | disputed
  deriving DecidableEq, Repr

/-- `attestationMachine.transitions` -/
def AttestationState.transitions : AttestationState → List AttestationState
  | draft => [signed]
  | signed => [active, superseded, revoked, disputed]
  | active => [staleCandidate, superseded, revoked, disputed]
  | staleCandidate => [active, superseded, revoked, disputed]
  | superseded => []
  | revoked => []
  | disputed => [active, superseded, revoked]

def canTransition (source target : AttestationState) : Bool := target ∈ source.transitions

/-- The values that a `stale_reason` is formatted from. -/
inductive StaleReason where
  | claimBecameStale (claimId : Uuid)
  | credentialIsNow (cause : CredentialStatus) (credentialId : Uuid)
  | credentialPassedExpiry (expiresAt : Option Instant) (credentialId : Uuid)
  | schemaWas (schemaKey schemaVersion : Text) (state : SchemaState)
  | schemaHasNewVersion (schemaKey newVersion attestedUnder : Text)
  deriving DecidableEq, Repr

/-- `core.verification_attestations`. `policy_version` lists the rule sets in force by name
and version, which are unique: here it is the list of their ids. -/
structure Attestation where
  id : Uuid
  caseId : Uuid
  credentialId : Uuid
  schemaId : Uuid
  claimScope : List Uuid
  policyVersion : List Uuid
  signedAt : Instant
  state : AttestationState
  staleReason : Option StaleReason
  supersedesId : Option Uuid
  deriving DecidableEq, Repr

inductive DisputeOutcome where
  | upheld | dismissed
  deriving DecidableEq, Repr

/-- `core.attestation_disputes` -/
structure Dispute where
  id : Uuid
  attestationId : Uuid
  resolution : Option DisputeOutcome
  deriving DecidableEq, Repr

/-- `core.compliance_assessments` -/
structure Assessment where
  id : Uuid
  projectId : Uuid
  gateId : Text
  policySetId : Uuid
  generatedAt : Instant
  deriving DecidableEq, Repr

inductive RegistryType where
  | project | verification | asset
  deriving DecidableEq, Repr

/-- `core.registry_entries` -/
structure Entry where
  id : Uuid
  registryType : RegistryType
  subjectId : Uuid
  deriving DecidableEq, Repr

inductive VersionStatus where
  | published | superseded | revoked
  deriving DecidableEq, Repr

/-- `core.registry_entry_versions` -/
structure EntryVersion where
  id : Uuid
  entryId : Uuid
  status : VersionStatus
  deriving DecidableEq, Repr

inductive TargetType where
  | complianceAssessment | registryEntryVersion
  deriving DecidableEq, Repr

/-- `origin_attestation_id` or `origin_policy_set_id`. -/
inductive SignalOrigin where
  | attestation (id : Uuid)
  | policySet (id : Uuid)
  deriving DecidableEq, Repr

inductive SignalReason where
  | attestationStale (reason : Option StaleReason)
  | policyNowEffective (ruleSetId usedVersion effectiveVersion : Text)
  | policyWas (ruleSetId usedVersion : Text) (state : PolicyState)
  deriving DecidableEq, Repr

inductive SignalResolution where
  | open | superseded | revoked | dismissed
  deriving DecidableEq, Repr

/-- `core.evidence_stale_signals` -/
structure Signal where
  targetType : TargetType
  targetId : Uuid
  origin : SignalOrigin
  projectId : Uuid
  reason : SignalReason
  resolution : SignalResolution
  deriving DecidableEq, Repr

/-- The unique keys, one for each kind of origin. -/
def Signal.key (signal : Signal) : TargetType × Uuid × SignalOrigin :=
  (signal.targetType, signal.targetId, signal.origin)

/-- What attestations rest on. -/
structure Basis where
  /-- Not stored: when the credentials were last swept. -/
  sweptAt : Instant
  claims : Table Claim.id
  credentials : Table Credential.id
  schemas : Table Schema.id
  policySets : Table PolicySet.id

structure Db extends Basis where
  now : Instant
  cases : Table Case.id
  attestations : Table Attestation.id
  disputes : Table Dispute.id
  assessments : Table Assessment.id
  entries : Table Entry.id
  versions : Table EntryVersion.id
  signals : Table Signal.key

def Db.empty : Db where
  now := 0
  sweptAt := 0
  claims := .empty
  credentials := .empty
  schemas := .empty
  policySets := .empty
  cases := .empty
  attestations := .empty
  disputes := .empty
  assessments := .empty
  entries := .empty
  versions := .empty
  signals := .empty

/-! ## Triggers -/

def Attestation.goStale (reason : StaleReason) (a : Attestation) : Attestation :=
  { a with state := .staleCandidate, staleReason := some reason }

namespace Db

/-- `ORDER BY generated_at DESC LIMIT 1`; of several of one time, which it is stays open. -/
def latestAssessment (db : Db) (projectId : Uuid) : Option Assessment :=
  ((db.assessments.rows.filter (·.projectId = projectId)).insertionSort
    fun a b => b.generatedAt ≤ a.generatedAt).head?

/-- The published versions of the project and of the attestation itself. -/
def publishedVersions (db : Db) (projectId attestationId : Uuid) : List EntryVersion :=
  db.versions.rows.filter fun v => v.status = .published &&
    db.entries.rows.any fun e => e.id = v.entryId &&
      (e.registryType = .project && e.subjectId = projectId ||
        e.registryType = .verification && e.subjectId = attestationId)

/-- What `propagate_attestation_to_signals` inserts for an attestation gone stale. -/
def signalsOf (db : Db) (attestation : Attestation) : List Signal :=
  match db.cases.lookup attestation.caseId with
  | none => []
  | some case_ =>
    let signal (targetType : TargetType) (targetId : Uuid) : Signal :=
      { targetType, targetId, origin := .attestation attestation.id,
        projectId := case_.projectId, reason := .attestationStale attestation.staleReason,
        resolution := .open }
    ((db.latestAssessment case_.projectId).map fun a => signal .complianceAssessment a.id).toList ++
      (db.publishedVersions case_.projectId attestation.id).map
        fun v => signal .registryEntryVersion v.id

/-- `ON CONFLICT DO NOTHING` -/
def insertSignals (db : Db) (signals : List Signal) : Db :=
  { db with signals := signals.foldl (fun t signal => t.insertIfAbsent signal) db.signals }

/-- The active attestations selected go to re-review. Each is signalled by its row trigger. -/
def markStale (db : Db) (selected : Attestation → Bool) (reason : StaleReason) : Db :=
  let moved := db.attestations.rows.filter fun a => a.state = .active && selected a
  insertSignals
    { db with
      attestations := db.attestations.update (fun a => a.state = .active && selected a)
        (Attestation.goStale reason) fun _ => rfl }
    ((moved.map (Attestation.goStale reason)).flatMap db.signalsOf)

/-- `propagate_claim_to_attestations`, with the update that fires it. -/
def staleClaim (db : Db) (id : Uuid) : Db :=
  if db.claims.rows.any fun c => c.id = id && c.staleSince.isNone then
    markStale
      { db with
        claims := db.claims.update (·.id = id) (fun c => { c with staleSince := some db.now })
          fun _ => rfl }
      (fun a => id ∈ a.claimScope) (.claimBecameStale id)
  else db

/-- The cause that `propagate_credential_to_attestations` finds. -/
def credentialCause (now : Instant) (old new : Credential) : Option CredentialStatus :=
  if new.currentStatus ≠ .valid ∧ new.currentStatus ≠ old.currentStatus then
    some new.currentStatus
  else if new.revokedAt.isSome ∧ old.revokedAt.isNone then some .revoked
  else if new.expiresAt.any (· ≤ now) ∧ new.expiresAt ≠ old.expiresAt then some .expired
  else none

/-- An update of a credential with its trigger. -/
def updateCredential (db : Db) (id : Uuid) (change : Credential → Credential)
    (keeps : ∀ c, (change c).id = c.id) : Db :=
  match db.credentials.lookup id with
  | none => db
  | some old =>
    let updated := { db with credentials := db.credentials.update (·.id = id) change keeps }
    match credentialCause db.now old (change old) with
    | none => updated
    | some cause => updated.markStale (·.credentialId = id) (.credentialIsNow cause id)

/-- `sweep_credential_expiry` for the tenant. -/
def sweepCredentialExpiry (db : Db) : Db :=
  (db.credentials.rows.filter fun c => c.expiresAt.any (· ≤ db.now)).foldl
    (fun db c => db.markStale (·.credentialId = c.id) (.credentialPassedExpiry c.expiresAt c.id))
    { db with sweptAt := db.now }

/-- `propagate_schema_to_attestations` -/
def propagateSchema (db : Db) (new : Schema) : Db :=
  if new.state = .superseded ∨ new.state = .retired then
    db.markStale (·.schemaId = new.id) (.schemaWas new.schemaKey new.schemaVersion new.state)
  else if new.state = .active then
    (db.schemas.rows.filter fun old => old.schemaKey = new.schemaKey && old.id ≠ new.id).foldl
      (fun db old => db.markStale (·.schemaId = old.id)
        (.schemaHasNewVersion new.schemaKey new.schemaVersion old.schemaVersion)) db
  else db

/-- `DISTINCT ON (project_id, gate_id) … ORDER BY generated_at DESC, id` -/
def isLatestOfGate (db : Db) (assessment : Assessment) : Bool :=
  assessment ∈ db.assessments.rows &&
    db.assessments.rows.all fun other =>
      other.projectId ≠ assessment.projectId || other.gateId ≠ assessment.gateId ||
        other.generatedAt < assessment.generatedAt ||
        (other.generatedAt = assessment.generatedAt && assessment.id ≤ other.id)

/-- What `propagate_policy_to_assessments` inserts. -/
def policySignals (db : Db) (new : PolicySet) : List Signal :=
  if new.state = .superseded ∨ new.state = .retired ∨ new.state = .effective then
    (db.assessments.rows.filter db.isLatestOfGate).filterMap fun latest =>
      (db.policySets.lookup latest.policySetId).bind fun used =>
        if used.ruleSetId = new.ruleSetId ∧
            (if new.state = .effective then used.id ≠ new.id else used.id = new.id) then
          some
            { targetType := .complianceAssessment, targetId := latest.id,
              origin := .policySet latest.policySetId, projectId := latest.projectId,
              reason := if new.state = .effective then
                  .policyNowEffective new.ruleSetId used.ruleSetVersion new.ruleSetVersion
                else .policyWas new.ruleSetId used.ruleSetVersion new.state,
              resolution := .open }
        else none
  else []

/-! ## Requests -/

/-- The compliance policy sets in force for a schema. -/
def policiesInForce (db : Db) (schemaId : Uuid) : List Uuid :=
  match db.schemas.lookup schemaId with
  | none => []
  | some schema =>
    (db.policySets.rows.filter fun p => p.state = .effective && p.effectiveFrom ≤ db.now &&
      p.jurisdictionProfile = schema.jurisdictionProfile).map PolicySet.id

/-- An attestation's update by a route. -/
def setAttestation (db : Db) (id : Uuid) (change : Attestation → Attestation)
    (keeps : ∀ a, (change a).id = a.id) : Db :=
  { db with attestations := db.attestations.update (·.id = id) change keeps }

def setState (db : Db) (id : Uuid) (state : AttestationState) : Db :=
  db.setAttestation id (fun a => { a with state }) fun _ => rfl

/-- The disputes of an attestation that are not resolved. -/
def unresolved (db : Db) (attestationId : Uuid) : List Dispute :=
  db.disputes.rows.filter fun d => d.attestationId = attestationId && d.resolution.isNone

end Db

inductive Request where
  | addClaim (id : Uuid)
  | staleClaim (id : Uuid)
  | addCredential (id : Uuid) (expiresAt : Option Instant)
  | changeCredentialStatus (id : Uuid) (status : CredentialStatus)
  | correctExpiry (id : Uuid) (expiresAt : Option Instant)
  | sweepCredentialExpiry
  | addSchema (id : Uuid) (schemaKey schemaVersion jurisdictionProfile : Text) (state : SchemaState)
  | changeSchema (id : Uuid) (state : SchemaState)
  | addPolicySet (id : Uuid) (ruleSetId ruleSetVersion jurisdictionProfile : Text)
      (effectiveFrom : Instant) (state : PolicyState)
  | changePolicySet (id : Uuid) (state : PolicyState)
  | openCase (id projectId schemaId : Uuid) (claimIds : List Uuid)
  | draft (id caseId credentialId : Uuid) (claimScope : List Uuid) (supersedesId : Option Uuid)
  | sign (attestationId : Uuid)
  | dispute (id attestationId : Uuid)
  | resolveDispute (disputeId : Uuid) (outcome : DisputeOutcome)
  | revoke (attestationId : Uuid)
  | generateAssessment (id projectId : Uuid) (gateId : Text) (policySetId : Uuid)
  | addEntry (id : Uuid) (registryType : RegistryType) (subjectId : Uuid)
  | publishVersion (id entryId : Uuid)
  | revokeVersion (id : Uuid)
  | closeSignal (key : TargetType × Uuid × SignalOrigin) (resolution : SignalResolution)
  deriving DecidableEq, Repr

inductive Refusal where
  | notFound
  | uniqueViolation
  | schemaNotActive
  | attestationScopeOutsideCase
  | credentialNotValid
  | invalidStateTransition
  | disputeAlreadyResolved
  | signalAlreadyResolved
  | requestInvalid
  deriving DecidableEq, Repr

/-- `CREDENTIAL_STATUS_TRANSITIONS` -/
def CredentialStatus.transitions : CredentialStatus → List CredentialStatus
  | valid => [expired, revoked, suspended]
  | suspended => [valid, expired, revoked]
  | expired => [revoked]
  | unknown => [valid, expired, revoked, suspended]
  | revoked => []

/-- The update of the credential route. -/
def Credential.setStatus (status : CredentialStatus) (now : Instant) (c : Credential) : Credential :=
  { c with currentStatus := status, revokedAt := if status = .revoked then some now else c.revokedAt }

/-- A date given anew. -/
def Credential.correctExpiry (expiresAt : Option Instant) (now : Instant) (c : Credential) :
    Credential :=
  if expiresAt = c.expiresAt then c else { c with expiresAt, datedAt := now }

/-- The update of the state that the schema trigger fires on. -/
def Schema.setState (state : SchemaState) (now : Instant) (s : Schema) : Schema :=
  { s with state,
           endedAt := if state = .superseded ∨ state = .retired then some now else s.endedAt }

theorem Schema.id_setState (state : SchemaState) (now : Instant) (s : Schema) :
    (s.setState state now).id = s.id := rfl

def PolicySet.setState (state : PolicyState) (now : Instant) (p : PolicySet) : PolicySet :=
  { p with state,
           endedAt := if state = .superseded ∨ state = .retired then some now else p.endedAt }

theorem PolicySet.id_setState (state : PolicyState) (now : Instant) (p : PolicySet) :
    (p.setState state now).id = p.id := rfl

/-- The signed row, with the policies in force. -/
def Attestation.sign (policyVersion : List Uuid) (now : Instant) (a : Attestation) : Attestation :=
  { a with policyVersion, signedAt := now, state := .signed }

/-- The row inserted, unless its key is taken. -/
def insertRow {ρ κ : Type} [DecidableEq κ] {key : ρ → κ} (t : Table key) (row : ρ) :
    Except Refusal (Table key) :=
  if (t.lookup (key row)).isSome then .error .uniqueViolation else .ok (t.insertIfAbsent row)

/-- `supersedePredecessor` -/
def supersedePredecessor (db : Db) (predecessorId : Uuid) : Except Refusal Db :=
  match db.attestations.lookup predecessorId with
  | none => .error .invalidStateTransition
  | some predecessor =>
    if !canTransition predecessor.state .superseded then .error .invalidStateTransition
    else .ok (db.setState predecessor.id .superseded)

def Db.handle (db : Db) : Request → Except Refusal Db
  | .addClaim id =>
    (insertRow db.claims { id, staleSince := none }).map fun claims => { db with claims }
  | .staleClaim id => .ok (db.staleClaim id)
  | .addCredential id expiresAt =>
    (insertRow db.credentials
      { id, currentStatus := .valid, expiresAt, revokedAt := none, datedAt := db.now }).map
        fun credentials => { db with credentials }
  | .changeCredentialStatus id status =>
    match db.credentials.lookup id with
    | none => .error .notFound
    | some credential =>
      if status ∉ credential.currentStatus.transitions then .error .invalidStateTransition
      else .ok (db.updateCredential id (Credential.setStatus status db.now) fun _ => rfl)
  | .correctExpiry id expiresAt =>
    .ok (db.updateCredential id (Credential.correctExpiry expiresAt db.now) fun c => by
      unfold Credential.correctExpiry
      split <;> rfl)
  | .sweepCredentialExpiry => .ok db.sweepCredentialExpiry
  | .addSchema id schemaKey schemaVersion jurisdictionProfile state =>
    let new : Schema :=
      { id, schemaKey, schemaVersion, jurisdictionProfile, state, endedAt := none }
    (insertRow db.schemas new).map fun schemas => ({ db with schemas }).propagateSchema new
  | .changeSchema id state =>
    match db.schemas.lookup id with
    | none => .error .notFound
    | some old =>
      if old.state = state then .ok db
      else
        .ok (({ db with
          schemas := db.schemas.update (·.id = id) (Schema.setState state db.now)
            (Schema.id_setState state db.now) }).propagateSchema (old.setState state db.now))
  | .addPolicySet id ruleSetId ruleSetVersion jurisdictionProfile effectiveFrom state =>
    let new : PolicySet :=
      { id, ruleSetId, ruleSetVersion, jurisdictionProfile, effectiveFrom, state,
        endedAt := none }
    (insertRow db.policySets new).map fun policySets =>
      let added := { db with policySets }
      added.insertSignals (added.policySignals new)
  | .changePolicySet id state =>
    match db.policySets.lookup id with
    | none => .error .notFound
    | some old =>
      if old.state = state then .ok db
      else
        let changed :=
          { db with
            policySets := db.policySets.update (·.id = id) (PolicySet.setState state db.now)
              (PolicySet.id_setState state db.now) }
        .ok (changed.insertSignals (changed.policySignals (old.setState state db.now)))
  | .openCase id projectId schemaId claimIds =>
    if (db.schemas.lookup schemaId).isNone then .error .notFound
    else (insertRow db.cases { id, projectId, schemaId, claimIds }).map fun cases => { db with cases }
  | .draft id caseId credentialId claimScope supersedesId =>
    match db.cases.lookup caseId, db.credentials.lookup credentialId with
    | some case_, some credential =>
      match db.schemas.lookup case_.schemaId with
      | none => .error .notFound
      | some schema =>
        if schema.state ≠ .active then .error .schemaNotActive
        else if ¬ claimScope ⊆ case_.claimIds then .error .attestationScopeOutsideCase
        else if credential.currentStatus ≠ .valid then .error .credentialNotValid
        else
          (insertRow db.attestations
            { id, caseId, credentialId, schemaId := case_.schemaId, claimScope,
              policyVersion := db.policiesInForce case_.schemaId, signedAt := db.now,
              state := .draft, staleReason := none, supersedesId }).map
            fun attestations => { db with attestations }
    | _, _ => .error .notFound
  | .sign attestationId =>
    match db.attestations.lookup attestationId with
    | none => .error .notFound
    | some attestation =>
      if attestation.state ≠ .draft then .error .invalidStateTransition
      else if ((db.credentials.lookup attestation.credentialId).all (·.currentStatus ≠ .valid)) then
        .error .credentialNotValid
      else
        let signed := db.setAttestation attestationId
          (Attestation.sign (db.policiesInForce attestation.schemaId) db.now) fun _ => rfl
        match attestation.supersedesId with
        | none => .ok signed
        | some predecessorId => supersedePredecessor signed predecessorId
  | .dispute id attestationId =>
    match db.attestations.lookup attestationId with
    | none => .error .notFound
    | some attestation =>
      if attestation.state ≠ .disputed ∧ !canTransition attestation.state .disputed then
        .error .invalidStateTransition
      else
        (insertRow db.disputes { id, attestationId, resolution := none }).map fun disputes =>
          ({ db with disputes }).setState attestationId .disputed
  | .resolveDispute disputeId outcome =>
    match db.disputes.lookup disputeId with
    | none => .error .notFound
    | some dispute =>
      if dispute.resolution.isSome then .error .disputeAlreadyResolved
      else
        let resolved :=
          { db with
            disputes := db.disputes.update (·.id = disputeId)
              (fun d => { d with resolution := some outcome }) fun _ => rfl }
        .ok <|
          if outcome = .dismissed ∧ resolved.unresolved dispute.attestationId = [] ∧
              (db.attestations.lookup dispute.attestationId).any (·.state = .disputed) then
            resolved.setState dispute.attestationId .active
          else resolved
  | .revoke attestationId =>
    match db.attestations.lookup attestationId with
    | none => .error .notFound
    | some attestation =>
      if !canTransition attestation.state .revoked then .error .invalidStateTransition
      else .ok (db.setState attestationId .revoked)
  | .generateAssessment id projectId gateId policySetId =>
    (insertRow db.assessments { id, projectId, gateId, policySetId, generatedAt := db.now }).map
      fun assessments => { db with assessments }
  | .addEntry id registryType subjectId =>
    (insertRow db.entries { id, registryType, subjectId }).map fun entries => { db with entries }
  | .publishVersion id entryId =>
    if (db.entries.lookup entryId).isNone then .error .notFound
    else
      (insertRow
        (db.versions.update (fun v => v.entryId = entryId && v.status = .published)
          (fun v => { v with status := .superseded }) fun _ => rfl)
        { id, entryId, status := .published }).map fun versions => { db with versions }
  | .revokeVersion id =>
    .ok { db with
      versions := db.versions.update (fun v => v.id = id && v.status = .published)
        (fun v => { v with status := .revoked }) fun _ => rfl }
  | .closeSignal key resolution =>
    match db.signals.lookup key with
    | none => .error .notFound
    | some signal =>
      if signal.resolution ≠ .open then .error .signalAlreadyResolved
      else if resolution = .open then .error .requestInvalid
      else
        .ok { db with
          signals := db.signals.update (Signal.key · = key) (fun s => { s with resolution })
            fun _ => rfl }

/-- A request is taken some time after the one before it. -/
def Db.take (db : Db) (taken : Instant × Request) : Except Refusal Db :=
  ({ db with now := db.now + taken.1 + 1 }).handle taken.2

/-- What a request is refused changes nothing. -/
def history : System Db (Instant × Request) := .ofExcept (· = Db.empty) Db.take

end MpcRegistry.Staleness
