import MpcRegistry.Documents.Links
import MpcRegistry.Library.Utf16
import MpcRegistry.Lifecycle.Transitions
import MpcRegistry.Policy.Readiness

/-!
# What the evidence ledger reads and keeps

Source: packages/db/migrations/0082_claim_type_catalog.sql, 0083_catalog_claim_inputs.sql,
0084_evidence_ledger.sql:1-78, 0087_catalog_reserved_keys.sql and packages/db/src/evidence-ledger.ts.
The tables are those of one tenant: every row here refers to rows of its own tenant by its
foreign keys, and the queries compare tenants throughout. Columns that no function here
reads are left out, and so is what a snapshot keeps only for its hash.
-/
namespace MpcRegistry.Ledger
open Library Utf16 Documents
open Policy (Grade ReadinessStatus)
open Lifecycle (ConfirmationStatus)

/-! ## Claims -/

/-- `core.is_reserved_catalog_key` -/
def isReservedCatalogKey (key : Text) : Bool :=
  key ∈ [units "relationship", units "consent", units "rights", units "issuer", units "spv",
    units "legal_structure", units "source_data"]

/-- `core.claim_types` -/
structure ClaimType where
  id : Uuid
  claimType : Text
  catalogVersion : Nat
  displayName : Text
  effectiveFrom : Instant
  deriving DecidableEq, Repr

/-- `core.claims`; its catalog entry and the version of it are given together or not at all. -/
structure Claim where
  id : Uuid
  projectId : Uuid
  claimType : Text
  catalog : Option (Uuid × Nat)
  grade : Grade
  asOf : Option Day
  staleSince : Option Instant
  sourceReceiptId : Option Uuid
  documentUploadIds : List Uuid
  supersededByClaimId : Option Uuid
  excludedByRule : Bool
  deriving DecidableEq, Repr

/-- `core.source_receipts` -/
structure SourceReceipt where
  id : Uuid
  projectId : Option Uuid
  /-- `result = 'confirmed_from_source'` -/
  confirmedFromSource : Bool
  freshnessStatus : Text
  /-- `channel_evidence ->> 'documentUploadId'` -/
  documentUploadId : Option Uuid
  deriving DecidableEq, Repr

/-- `core.claim_conflicts` -/
structure ClaimConflict where
  id : Uuid
  claimId : Uuid
  conflictType : Text
  resolvedAt : Option Instant
  deriving DecidableEq, Repr

inductive SignalTarget where
  | complianceAssessment | registryEntryVersion | projectLifecycle
  deriving DecidableEq, Repr

/-- `core.evidence_stale_signals` -/
structure StaleSignal where
  id : Uuid
  projectId : Option Uuid
  targetType : SignalTarget
  targetId : Uuid
  originAttestationId : Option Uuid
  originClaimId : Option Uuid
  /-- `resolution = 'open'` -/
  isOpen : Bool
  deriving DecidableEq, Repr

/-- `core.project_fact_versions` -/
structure FactVersion where
  projectId : Uuid
  factKey : Text
  version : Nat
  status : ConfirmationStatus
  deriving DecidableEq, Repr

/-- `UNIQUE (project_id, fact_key, version)` -/
def FactVersion.key (f : FactVersion) : Uuid × Text × Nat := (f.projectId, f.factKey, f.version)

/-! ## Reviews -/

/-- `core.verification_cases` -/
structure Case where
  id : Uuid
  projectId : Uuid
  deriving DecidableEq, Repr

inductive CredentialStatus where
  | valid | expired | revoked | suspended | unknown
  deriving DecidableEq, Repr

/-- `core.credentials` -/
structure Credential where
  id : Uuid
  currentStatus : CredentialStatus
  revokedAt : Option Instant
  expiresAt : Option Instant
  deriving DecidableEq, Repr

inductive SchemaState where
  | draft | approved | active | superseded | retired
  deriving DecidableEq, Repr

/-- `core.attestation_schemas` -/
structure Schema where
  id : Uuid
  state : SchemaState
  deriving DecidableEq, Repr

inductive AttestationState where
  | draft | signed | active | staleCandidate | superseded | revoked | disputed
  deriving DecidableEq, Repr

/-- `core.verification_attestations` -/
structure Attestation where
  id : Uuid
  caseId : Uuid
  credentialId : Uuid
  schemaId : Uuid
  claimScope : List Uuid
  limitations : Text
  signature : Text
  signedAt : Instant
  validUntil : Option Instant
  state : AttestationState
  deriving DecidableEq, Repr

/-! ## Policies -/

/-- What the ledger reads of a requirement. A threshold that is not a run of digits is none. -/
structure Requirement where
  requirementId : Text
  requiredClaimTypes : List Text
  freshnessThresholdDays : Option Nat
  minimumGrade : Option Grade
  deriving DecidableEq, Repr

inductive PolicyState where
  | draft | approved | effective | superseded | retired
  deriving DecidableEq, Repr

/-- `core.compliance_policy_sets` -/
structure PolicySet where
  id : Uuid
  gateId : Text
  jurisdictionProfile : Text
  effectiveFrom : Instant
  createdAt : Instant
  supersededBy : Option Uuid
  state : PolicyState
  requirements : List Requirement
  deriving DecidableEq, Repr

/-- `core.projects` -/
structure Project where
  id : Uuid
  hostCountryIso3 : Text
  deriving DecidableEq, Repr

/-! ## Snapshots and publications -/

inductive LedgerItemStatus where
  | missing | unreviewed | reviewed | needsReReview | conflicting | rejected | notApplicable
  deriving DecidableEq, Repr

/-- `LedgerItem`, without the reviews it shows. -/
structure LedgerItem where
  claimType : Text
  catalogVersion : Nat
  displayName : Text
  status : LedgerItemStatus
  grade : Option Grade
  reviewScope : List Text
  claimIds : List Uuid
  attestationIds : List Uuid
  reasons : List Text
  limitations : List Text
  deriving DecidableEq, Repr

/-- What names an item. -/
def LedgerItem.identity (item : LedgerItem) : Text × Nat := (item.claimType, item.catalogVersion)

structure LedgerStage where
  policySetId : Uuid
  status : ReadinessStatus
  deriving DecidableEq, Repr

/-- `core.evidence_ledger_snapshots`. The last four are read from the `inputBasis`. -/
structure Snapshot where
  id : Uuid
  projectId : Uuid
  evaluatedAt : Instant
  items : List LedgerItem
  stages : List LedgerStage
  policies : List PolicySet
  manual : List FactVersion
  applicableStageRequirements : Option (List (Uuid × Text))
  deriving DecidableEq, Repr

/-- An item as the public sees it. -/
structure PublicLedgerItem where
  claimType : Text
  catalogVersion : Nat
  displayName : Text
  status : LedgerItemStatus
  grade : Option Grade
  reviewScope : List Text
  reasons : List Text
  limitations : List Text
  deriving DecidableEq, Repr

/-- `publicLedgerProjection`, as far as its items. -/
structure LedgerProjection where
  snapshotId : Uuid
  items : List PublicLedgerItem
  deriving DecidableEq, Repr

inductive RegistryType where
  | project | verification | asset
  deriving DecidableEq, Repr

/-- `core.registry_entries` -/
structure Entry where
  id : Uuid
  registryType : RegistryType
  subjectId : Uuid
  deriving DecidableEq, Repr

inductive VersionStatus where
  | draft | published | superseded | revoked
  deriving DecidableEq, Repr

/-- `core.registry_entry_versions`, with the `evidenceLedger` of its projection. -/
structure EntryVersion where
  id : Uuid
  entryId : Uuid
  status : VersionStatus
  publishedAt : Option Instant
  evidenceLedger : Option LedgerProjection
  deriving DecidableEq, Repr

/-- What moves freely: nothing the ledger keeps refers to these rows. -/
structure Surroundings where
  receipts : Table SourceReceipt.id
  conflicts : Table ClaimConflict.id
  signals : Table StaleSignal.id
  facts : Table FactVersion.key
  uploads : Table Upload.id
  links : Table DocumentLink.id
  impacts : Table DocumentImpact.id
  policySets : Table PolicySet.id
  projects : Table Project.id

structure Db extends Surroundings where
  claimTypes : Table ClaimType.id
  claims : Table Claim.id
  cases : Table Case.id
  credentials : Table Credential.id
  schemas : Table Schema.id
  attestations : Table Attestation.id
  snapshots : Table Snapshot.id
  entries : Table Entry.id
  versions : Table EntryVersion.id

def Surroundings.empty : Surroundings where
  receipts := .empty
  conflicts := .empty
  signals := .empty
  facts := .empty
  uploads := .empty
  links := .empty
  impacts := .empty
  policySets := .empty
  projects := .empty

def Db.empty : Db where
  toSurroundings := .empty
  claimTypes := .empty
  claims := .empty
  cases := .empty
  credentials := .empty
  schemas := .empty
  attestations := .empty
  snapshots := .empty
  entries := .empty
  versions := .empty

end MpcRegistry.Ledger
