import MpcRegistry.Registry.Publication

/-!
# Status reports of a project

Source: apps/api/src/routes/cre-reports.ts:50-153, packages/api-contract/src/cre.ts:4-22,
packages/db/migrations/0095_cre_reports.sql:15-50. The health evaluation reads
tables of the evidence ledger; what it found is given. `clock_timestamp` is the
clock of the database when its statement runs.
-/
namespace MpcRegistry.Registry
open Library ReadCommitted Canonical Ecma Cre

/-- `createCreReportRequest` with the project of the path. -/
structure ReportRequest where
  tenantId : Uuid
  projectId : Uuid
  idempotencyKey : Text
  publicKey : Text
  chainId : Text
  receiver : Text
  ttlSeconds : Text
  deriving DecidableEq, Repr

/-- What the health statement found, with the number of live warnings. -/
structure Health where
  warnings : Option Nat
  stale : Bool
  unavailable : Bool
  deriving DecidableEq, Repr

/-- Microseconds to whole seconds, as `floor(extract(epoch FROM …))`. -/
def epochSeconds (time : Nat) : Nat := time / 1000000

def reportStatus (version : EntryVersion) (lifecycleState : Text) (health : Health) : ℚ :=
  let staleStatus := version.publicProjection.read (units "staleStatus")
  let isText (text : Text) : Bool :=
    match staleStatus with
    | some (.str value) => value = text
    | _ => false
  if version.status = .revoked then 3
  else if health.stale ∨ version.status = .superseded ∨ lifecycleState = units "suspended" ∨
      isText (units "stale") ∨ 0 < health.warnings.getD 0 then 2
  else if health.warnings = none ∨ !isText (units "fresh") ∨ health.unavailable then 5
  else 1

/-- `(report ->> 'sequence')::numeric` -/
def CreReport.sequence (row : CreReport) : Nat :=
  (parseBigInt row.report.sequence).elim 0 Int.toNat

/-- `COALESCE(the highest sequence, 0) + 1` -/
def nextSequence (history : List CreReport) : Text :=
  decimalText ((history.map (·.sequence)).foldr max 0 + 1)

/-- The versions a report may describe, the latest first. -/
def Db.reportable (db : Db) (request : ReportRequest) : List EntryVersion :=
  (db.versions.rows.filter fun v => v.tenantId = request.tenantId ∧ v.status ≠ .draft ∧
      v.publishedAt ≠ none ∧ ∃ entry ∈ db.entries.rows, entry.id = v.entryId ∧
        entry.tenantId = request.tenantId ∧ entry.subjectId = request.projectId ∧
        entry.registryType = .project ∧ entry.publicKey = request.publicKey).insertionSort
    fun a b => b.version ≤ a.version

/-- The object given to `creReport.parse`. -/
def reportObject (keccak_256 : Bytes → Digest) (request : ReportRequest) (version : EntryVersion)
    (observedAt validUntil : Nat) (sequence : Text) (status : ℚ) : JsonValue :=
  .object [
    (units "chainId", .str request.chainId),
    (units "receiver", .str request.receiver),
    (units "recordId", .str (recordIdFor keccak_256 request.publicKey)),
    (units "registryVersion", .str (decimalText version.version)),
    (units "contentHash", .str version.contentHash),
    (units "observedAt", .str (decimalText observedAt)),
    (units "validUntil", .str (decimalText validUntil)),
    (units "sequence", .str sequence),
    (units "status", .number status)]

/-- The version that was read and locked `FOR SHARE`, and when health is evaluated. -/
structure Observation where
  request : ReportRequest
  version : EntryVersion
  lifecycleState : Text
  evaluatedAt : Nat

inductive Reporting where
  | begun (request : ReportRequest)
  | keyLocked (request : ReportRequest)
  | inputsLocked (request : ReportRequest)
  | versionChosen (request : ReportRequest) (versionId : Uuid)
  | versionRead (request : ReportRequest) (version : EntryVersion) (lifecycleState : Text)
  | clockRead (observation : Observation)
  | healthRead (observation : Observation) (health : Health) (sequence : Text)
  | observed (row : CreReport)
  | inserted (row : CreReport)

/-- The trigger `cre_reports_scope`. -/
def Db.inScope (db : Db) (row : CreReport) : Prop :=
  ∃ v ∈ db.versions.rows, v.tenantId = row.tenantId ∧ v.id = row.registryVersionId ∧
    (∃ entry ∈ db.entries.rows, entry.id = v.entryId ∧ entry.tenantId = v.tenantId ∧
      entry.registryType = .project ∧ entry.subjectId = row.projectId) ∧
    v.publishedAt ≠ none ∧ v.status ≠ .draft ∧ v.contentHash = row.report.contentHash ∧
    decimalText v.version = row.report.registryVersion

instance (db : Db) (row : CreReport) : Decidable (db.inScope row) :=
  inferInstanceAs (Decidable (∃ v ∈ db.versions.rows, _))

def notPublished : Refusal := .notFound (units "Published project record not found")

namespace Reporting

/-- One statement, given the chain the deployment is configured for, the
lifecycle state of the project and what the health evaluation found. -/
def next (keccak_256 : Bytes → Digest) (chainId : Text) (db : Db) (lifecycleState : Text)
    (health : Health) : Reporting → Except Refusal Reporting
  | begun request =>
    if request.chainId ≠ chainId then .error .chainMismatch else .ok (keyLocked request)
  | keyLocked request => .ok (inputsLocked request)
  | inputsLocked request =>
    match (db.reportable request).head? with
    | none => .error notPublished
    | some version => .ok (versionChosen request version.id)
  | versionChosen request versionId =>
    match db.versions.rows.find? fun v => v.id = versionId ∧ v.status ≠ .draft with
    | none => .error notPublished
    | some version => .ok (versionRead request version lifecycleState)
  | versionRead request version lifecycleState =>
    .ok (clockRead { request, version, lifecycleState, evaluatedAt := db.now })
  | clockRead observation =>
    .ok (healthRead observation health
      (nextSequence (db.reportsOf observation.request.tenantId observation.request.projectId)))
  | healthRead observation health sequence =>
    let observedAt := epochSeconds observation.evaluatedAt
    match parseBigInt observation.request.ttlSeconds with
    | none => .error .reportInvalid
    | some ttl =>
      let validUntil := observedAt + ttl.toNat
      if validUntil ≤ epochSeconds db.now then .error .observationExpired
      else
        let status := reportStatus observation.version observation.lifecycleState health
        match creReport (reportObject keccak_256 observation.request observation.version observedAt
          validUntil sequence status) with
        | none => .error .reportInvalid
        | some report => .ok (observed {
            tenantId := observation.request.tenantId
            projectId := observation.request.projectId
            registryVersionId := observation.version.id
            report })
  | observed row =>
    if ¬ db.inScope row then .error .reportScope
    else if ∃ other ∈ db.reports.rows, other.key = row.key then .error .uniqueViolation
    else .ok (inserted row)
  | inserted _ => .error .outOfTurn

/-- The evidence of the project, then the version. -/
def versionLocks (tenantId projectId versionId : Uuid) : List (Lock × LockMode) :=
  (.version versionId, .share) :: ledgerLocks tenantId projectId

def observationLocks (observation : Observation) : List (Lock × LockMode) :=
  versionLocks observation.request.tenantId observation.request.projectId observation.version.id

/-- The lock on the idempotency key is left out from the second one on: holding
it longer only adds waiting. -/
def locks : Reporting → List (Lock × LockMode)
  | begun _ => []
  | keyLocked request => [(.creReportKey request.tenantId request.idempotencyKey, .exclusive)]
  | inputsLocked request => ledgerLocks request.tenantId request.projectId
  | versionChosen request _ => ledgerLocks request.tenantId request.projectId
  | versionRead request version _ => versionLocks request.tenantId request.projectId version.id
  | clockRead observation => observationLocks observation
  | healthRead observation _ _ => observationLocks observation
  | observed row => versionLocks row.tenantId row.projectId row.registryVersionId
  | inserted row =>
    (.reportSequence row.key, .exclusive) ::
      versionLocks row.tenantId row.projectId row.registryVersionId

def effect : Reporting → Option (Db → Db)
  | inserted row => some fun db => { db with reports := db.reports.insertIfAbsent row }
  | _ => none

end Reporting

end MpcRegistry.Registry
