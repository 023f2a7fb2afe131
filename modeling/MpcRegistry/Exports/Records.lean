import MpcRegistry.Library.OrderBy
import MpcRegistry.Registry.Tables

/-!
# The records of a project export

Source: apps/jobs-worker/src/project-export.ts:36-66 and 246-338,
packages/db/migrations/0001_schema.sql and 0058_receipt_raw_hash_absent.sql. Columns that a
package does not read are left out. Times are microseconds. Rows that an `ORDER BY` ties, and
rows of a query without one, come as the table has them.
-/
namespace MpcRegistry.Exports
open Library Canonical
open Registry (Uuid RegistryType EntryStatus)

abbrev Instant := Int

inductive Sensitivity where
  | «public» | restricted | confidential | pii | whistleblower
  deriving DecidableEq, Repr

def Sensitivity.text : Sensitivity → Text
  | .public => units "public"
  | .restricted => units "restricted"
  | .confidential => units "confidential"
  | .pii => units "pii"
  | .whistleblower => units "whistleblower"

/-- A value as the driver reads it. A number or bigint carries what `String` makes of it. -/
inductive ColumnValue where
  | null
  | number (text : Text)
  | str (value : Text)
  | bool (value : Bool)
  | date (time : Instant)
  | array (items : List ColumnValue)
  | object (members : List (Text × ColumnValue))

def ColumnValue.texts (values : List Text) : ColumnValue := .array (values.map .str)

/-- `core.projects` -/
structure Project where
  id : Uuid
  tenantId : Uuid
  projectKey : Text

/-- `core.verification_cases` -/
structure VerificationCase where
  id : Uuid
  tenantId : Uuid
  projectId : Uuid

/-- `core.verification_attestations` -/
structure Attestation where
  id : Uuid
  tenantId : Uuid
  caseId : Uuid
  schemaId : Uuid
  attestationType : Text
  evidenceSnapshotHash : Text
  limitations : Text
  methodVersion : Text
  policyVersion : Text
  payloadHash : Text
  signerWalletAddress : Text
  signedAt : Instant
  validUntil : Option Instant
  state : Text
  supersedesId : Option Uuid
  revokesId : Option Uuid

/-- `core.registry_entries` -/
structure RegistryEntry where
  id : Uuid
  tenantId : Uuid
  registryType : RegistryType
  subjectId : Uuid
  publicKey : Text

/-- `core.registry_entry_versions` -/
structure RegistryEntryVersion where
  id : Uuid
  tenantId : Uuid
  entryId : Uuid
  version : Int
  status : EntryStatus
  publicProjection : ColumnValue
  contentHash : Option Text
  sourceSnapshotHash : Text
  policyVersion : Text
  schemaVersion : Text
  serializationVersion : Text
  publishedAt : Option Instant
  revokedAt : Option Instant
  supersededById : Option Uuid

/-- `core.source_receipts` -/
structure SourceReceipt where
  id : Uuid
  tenantId : Uuid
  projectId : Option Uuid
  authorityId : Uuid
  collectionMethod : Text
  result : Text
  endpointOrDocumentRef : Text
  rawHash : Option Text
  sourceSchemaVersion : Text
  adapterVersion : Text
  normalizationVersion : Option Text
  termsLicense : Text
  commercialReuse : Text
  disclosurePermission : Sensitivity
  receivedAt : Instant
  asOf : Instant
  effectiveAt : Option Instant
  freshnessStatus : Text
  limitations : List Text

/-- `core.gate_decisions` -/
structure GateDecision where
  id : Uuid
  tenantId : Uuid
  projectId : Uuid
  gateId : Text
  decision : Text
  inputAssessmentId : Uuid
  evidenceSnapshotHash : Text
  decisionAuthority : Text
  decisionMakerSubjectId : Uuid
  rationale : Text
  assumptions : List Text
  conditions : List Text
  signedAt : Instant

/-- `chain.anchor_batches` -/
structure AnchorBatch where
  id : Uuid
  tenantId : Uuid
  batchId : Text
  merkleRoot : Text
  createdAt : Instant

/-- `chain.anchor_batch_leaves` -/
structure AnchorBatchLeaf where
  batchId : Uuid
  leafHash : Text
  entryVersionId : Uuid

/-- `chain.transactions` -/
structure Transaction where
  id : Uuid
  batchId : Option Uuid
  chainId : Int
  txHash : Option Text
  state : Text
  blockNumber : Option Int
  createdAt : Instant

structure Db where
  projects : Table Project.id
  cases : Table VerificationCase.id
  attestations : Table Attestation.id
  entries : Table RegistryEntry.id
  versions : Table RegistryEntryVersion.id
  receipts : Table SourceReceipt.id
  decisions : Table GateDecision.id
  batches : Table AnchorBatch.id
  leaves : List AnchorBatchLeaf
  transactions : Table Transaction.id

/-- A row of `core.project_exports`; its `state` is what the caller looks at. -/
structure ExportJob where
  id : Uuid
  tenantId : Uuid
  projectId : Uuid
  requestedBySubjectId : Uuid
  requestedByWallet : Option Text
  sensitivityClearance : List Text
  requestedAt : Instant

/-- `SELECT v.*, e.registry_type, e.public_key` -/
structure VersionRow where
  version : RegistryEntryVersion
  entryId : Uuid
  registryType : RegistryType
  publicKey : Text

structure AnchorLeafRow where
  entryVersionId : Uuid
  leafHash : Text
  batchRowId : Uuid
  externalBatchId : Text
  merkleRoot : Text
  batchCreatedAt : Instant
  transaction : Option Transaction

structure ExportRecords where
  project : Project
  registryVersions : List VersionRow
  attestations : List Attestation
  sourceReceipts : List SourceReceipt
  gateDecisions : List GateDecision
  anchorLeaves : List AnchorLeafRow
  batchLeaves : List (Uuid × List Text)

/-! ## The queries -/

section Queries

variable (job : ExportJob) (db : Db)

/-- The join with `core.verification_cases` under the conditions on the case. -/
def Db.caseOfProject (caseId : Uuid) : Bool :=
  (db.cases.lookup caseId).any fun c => c.tenantId = job.tenantId && c.projectId = job.projectId

def Attestation.exported (a : Attestation) : Bool :=
  a.tenantId = job.tenantId && db.caseOfProject job a.caseId

def Attestation.orderKey (a : Attestation) : Int ×ₗ Text := toLex (a.signedAt, a.id)

def Db.exportedAttestations : List Attestation :=
  orderBy Attestation.orderKey (db.attestations.rows.filter (Attestation.exported job db))

/-- The project itself, or one of its verification cases or attestations. -/
def Db.isExportSubject (subjectId : Uuid) : Bool :=
  subjectId = job.projectId || db.caseOfProject job subjectId ||
    db.attestations.rows.any fun a => a.id = subjectId && db.caseOfProject job a.caseId

/-- The version with its entry, when both are of the tenant and the subject is one of these. -/
def Db.versionRow (v : RegistryEntryVersion) : Option VersionRow :=
  (db.entries.lookup v.entryId).bind fun e =>
    if v.tenantId = job.tenantId ∧ e.tenantId = job.tenantId ∧ db.isExportSubject job e.subjectId
    then
      some {
        version := v
        entryId := e.id
        registryType := e.registryType
        publicKey := e.publicKey }
    else none

def VersionRow.orderKey (row : VersionRow) : Text ×ₗ Int := toLex (row.entryId, row.version.version)

def Db.exportedVersions : List VersionRow :=
  orderBy VersionRow.orderKey (db.versions.rows.filterMap (db.versionRow job))

def SourceReceipt.exported (r : SourceReceipt) : Bool :=
  r.tenantId = job.tenantId && r.projectId = some job.projectId

def SourceReceipt.orderKey (r : SourceReceipt) : Int ×ₗ Text := toLex (r.receivedAt, r.id)

def Db.exportedReceipts : List SourceReceipt :=
  orderBy SourceReceipt.orderKey (db.receipts.rows.filter (SourceReceipt.exported job))

def GateDecision.exported (d : GateDecision) : Bool :=
  d.tenantId = job.tenantId && d.projectId = job.projectId

def GateDecision.orderKey (d : GateDecision) : Int ×ₗ Text := toLex (d.signedAt, d.id)

def Db.exportedDecisions : List GateDecision :=
  orderBy GateDecision.orderKey (db.decisions.rows.filter (GateDecision.exported job))

/-- `ORDER BY created_at DESC LIMIT 1` -/
def Db.latestTransaction (batchId : Uuid) : Option Transaction :=
  (orderBy (fun t => OrderDual.toDual t.createdAt)
    (db.transactions.rows.filter (·.batchId = some batchId))).head?

def Db.leafRow (versionIds : List Uuid) (l : AnchorBatchLeaf) : Option AnchorLeafRow :=
  (db.batches.lookup l.batchId).bind fun b =>
    if b.tenantId = job.tenantId ∧ l.entryVersionId ∈ versionIds then
      some {
        entryVersionId := l.entryVersionId
        leafHash := l.leafHash
        batchRowId := l.batchId
        externalBatchId := b.batchId
        merkleRoot := b.merkleRoot
        batchCreatedAt := b.createdAt
        transaction := db.latestTransaction b.id }
    else none

def AnchorLeafRow.orderKey (row : AnchorLeafRow) : Text ×ₗ Int :=
  toLex (row.entryVersionId, row.batchCreatedAt)

/-- No version selects no leaf, so the query that is left out then is no case apart. -/
def Db.exportedLeaves (versionIds : List Uuid) : List AnchorLeafRow :=
  orderBy AnchorLeafRow.orderKey (db.leaves.filterMap (db.leafRow job versionIds))

end Queries

/-- `batchLeaves.set(batchId, [...(batchLeaves.get(batchId) ?? []), leafHash])` -/
def addLeaf (batchLeaves : List (Uuid × List Text)) (l : AnchorBatchLeaf) :
    List (Uuid × List Text) :=
  if l.batchId ∈ batchLeaves.map Prod.fst then
    batchLeaves.map fun entry =>
      if entry.1 = l.batchId then (entry.1, entry.2 ++ [l.leafHash]) else entry
  else batchLeaves ++ [(l.batchId, [l.leafHash])]

/-- Every leaf of the batches asked for, also of versions of other projects. -/
def Db.leavesOfBatches (db : Db) (batchIds : List Uuid) : List (Uuid × List Text) :=
  (db.leaves.filter (·.batchId ∈ batchIds)).foldl addLeaf []

def loadExportRecords (db : Db) (job : ExportJob) : Except Thrown ExportRecords :=
  match db.projects.rows.find? fun p => p.tenantId = job.tenantId && p.id = job.projectId with
  | none => .error (.error (units "EXPORT_PROJECT_NOT_FOUND"))
  | some project =>
    let registryVersions := db.exportedVersions job
    let anchorLeaves := db.exportedLeaves job (registryVersions.map (·.version.id))
    .ok {
      project
      registryVersions
      attestations := db.exportedAttestations job
      sourceReceipts := db.exportedReceipts job
      gateDecisions := db.exportedDecisions job
      anchorLeaves
      batchLeaves := db.leavesOfBatches (anchorLeaves.map (·.batchRowId)) }

end MpcRegistry.Exports
