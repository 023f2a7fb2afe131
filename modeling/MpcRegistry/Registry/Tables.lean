import MpcRegistry.Library.ReadCommitted
import MpcRegistry.Library.Table
import MpcRegistry.Registry.Projection
import MpcRegistry.Cre.Protocol

/-!
# The tables of the registry

Source: packages/db/migrations/0001_schema.sql:586-658, 0003_guards.sql:122-176,
0041_anchor_worker_integrity.sql:30-31, 0056_registry_publication_drafts.sql:30-112,
0095_cre_reports.sql:2-14. Columns that no modelled request reads are left out.
Times are microseconds. Row-level security shows a request the rows of its
tenant.
-/
namespace MpcRegistry.Registry
open Library Canonical

abbrev Uuid := Text

inductive RegistryType where
  | project | verification | asset
  deriving DecidableEq, Repr

def RegistryType.text : RegistryType → Text
  | .project => units "project"
  | .verification => units "verification"
  | .asset => units "asset"

inductive EntryStatus where
  | draft | published | revoked | superseded
  deriving DecidableEq, Repr

def EntryStatus.text : EntryStatus → Text
  | .draft => units "draft"
  | .published => units "published"
  | .revoked => units "revoked"
  | .superseded => units "superseded"

inductive DraftState where
  | pending | published | rejected
  deriving DecidableEq, Repr

/-- `core.registry_publication_drafts` -/
structure Draft where
  id : Uuid
  tenantId : Uuid
  registryType : RegistryType
  subjectId : Uuid
  publicKey : Text
  projection : Projection
  sourceSnapshotHash : Text
  policyVersion : Text
  schemaVersion : Text
  proposedBySubjectId : Uuid
  state : DraftState
  decidedBySubjectId : Option Uuid
  entryVersionId : Option Uuid
  version : Nat

/-- `core.registry_entries`; no statement of the repository updates or deletes a row. -/
structure Entry where
  id : Uuid
  tenantId : Uuid
  registryType : RegistryType
  subjectId : Uuid
  publicKey : Text
  deriving DecidableEq, Repr

/-- `core.registry_entry_versions` -/
structure EntryVersion where
  id : Uuid
  tenantId : Uuid
  entryId : Uuid
  version : Nat
  status : EntryStatus
  publicProjection : Projection
  contentHash : Text
  sourceSnapshotHash : Text
  policyVersion : Text
  schemaVersion : Text
  serializationVersion : Text
  previousVersionId : Option Uuid
  publishedAt : Option Nat
  revokedAt : Option Nat
  supersededById : Option Uuid
  createdAt : Nat

/-- `chain.anchor_batches` -/
structure AnchorBatch where
  id : Uuid
  tenantId : Uuid
  batchId : Text
  merkleRoot : Text
  manifestHash : Text
  manifestObjectKey : Text
  schemaVersion : Text
  recordCount : Nat
  deriving DecidableEq, Repr

/-- `chain.anchor_batch_leaves` -/
structure AnchorBatchLeaf where
  batchId : Uuid
  leafHash : Text
  entryVersionId : Uuid
  leafIndex : Nat
  deriving DecidableEq, Repr

/-- `core.cre_reports` -/
structure CreReport where
  tenantId : Uuid
  projectId : Uuid
  registryVersionId : Uuid
  report : Cre.RegistryReport
  deriving DecidableEq, Repr

/-- `cre_reports_public_sequence_idx` -/
def CreReport.key (row : CreReport) : Uuid × Uuid × Text :=
  (row.tenantId, row.projectId, row.report.sequence)

/-- The committed rows. A leaf's key is the unique index of migration 0041. -/
structure Db where
  drafts : Table Draft.id
  entries : Table Entry.id
  versions : Table EntryVersion.id
  batches : Table AnchorBatch.id
  leaves : Table AnchorBatchLeaf.entryVersionId
  reports : Table CreReport.key
  now : Nat

def Db.empty (now : Nat) : Db := ⟨.empty, .empty, .empty, .empty, .empty, .empty, now⟩

namespace Db

def versionsOf (db : Db) (entryId : Uuid) : List EntryVersion :=
  db.versions.rows.filter (·.entryId = entryId)

/-- `WHERE entry_id = … ORDER BY version DESC`, of the rows a tenant sees. -/
def versionsDesc (db : Db) (tenantId entryId : Uuid) : List EntryVersion :=
  ((db.versionsOf entryId).filter (·.tenantId = tenantId)).insertionSort
    fun a b => b.version ≤ a.version

/-- `WHERE registry_type = … AND public_key = …`, of the rows a tenant sees. -/
def entryFor (db : Db) (tenantId : Uuid) (registryType : RegistryType) (publicKey : Text) :
    Option Entry :=
  db.entries.rows.find? fun entry => entry.tenantId = tenantId ∧
    entry.registryType = registryType ∧ entry.publicKey = publicKey

def leavesOf (db : Db) (batchId : Uuid) : List AnchorBatchLeaf :=
  db.leaves.rows.filter (·.batchId = batchId)

def reportsOf (db : Db) (tenantId projectId : Uuid) : List CreReport :=
  db.reports.rows.filter fun row => row.tenantId = tenantId ∧ row.projectId = projectId

end Db

theorem mem_versionsOf {db : Db} {entryId : Uuid} {v : EntryVersion} :
    v ∈ db.versionsOf entryId ↔ v ∈ db.versions ∧ v.entryId = entryId := by
  simp [Db.versionsOf, Table.mem_rows]

theorem mem_versionsDesc {db : Db} {tenantId entryId : Uuid} {v : EntryVersion} :
    v ∈ db.versionsDesc tenantId entryId ↔
      v ∈ db.versions ∧ v.entryId = entryId ∧ v.tenantId = tenantId := by
  simp [Db.versionsDesc, mem_versionsOf, and_assoc]

/-- The first row in descending order has the highest number. -/
theorem version_le_head {db : Db} {tenantId entryId : Uuid} {v u : EntryVersion}
    (hv : (db.versionsDesc tenantId entryId).head? = some v)
    (hu : u ∈ db.versionsDesc tenantId entryId) : u.version ≤ v.version := by
  rw [Db.versionsDesc, List.mem_insertionSort] at hu
  exact le_of_head?_descending EntryVersion.version hv hu

theorem entryFor_eq_some {db : Db} {tenantId : Uuid} {registryType : RegistryType}
    {publicKey : Text} {entry : Entry}
    (h : db.entryFor tenantId registryType publicKey = some entry) :
    entry ∈ db.entries ∧ entry.tenantId = tenantId ∧ entry.registryType = registryType ∧
      entry.publicKey = publicKey := by
  have hfound := List.find?_some h
  simp only [decide_eq_true_eq] at hfound
  exact ⟨List.mem_of_find?_eq_some h, hfound⟩

/-! ## Updates of a version -/

section Updates

/-- What the trigger `registry_version_immutable_after_publish` compares. -/
def EntryVersion.protects (old new : EntryVersion) : Prop :=
  new.publicProjection = old.publicProjection ∧ new.contentHash = old.contentHash ∧
    new.sourceSnapshotHash = old.sourceSnapshotHash ∧ new.policyVersion = old.policyVersion ∧
    new.schemaVersion = old.schemaVersion ∧
    new.serializationVersion = old.serializationVersion ∧ new.version = old.version ∧
    new.entryId = old.entryId

/-- `SET status = 'superseded', superseded_by_id = …` -/
def EntryVersion.supersede (successor : Uuid) (v : EntryVersion) : EntryVersion :=
  { v with status := .superseded, supersededById := some successor }

/-- `SET status = 'revoked', revoked_at = now()` -/
def EntryVersion.revoke (now : Nat) (v : EntryVersion) : EntryVersion :=
  { v with status := .revoked, revokedAt := some now }

/-- The trigger lets both updates through. -/
theorem protects_updates (v : EntryVersion) (successor : Uuid) (now : Nat) :
    v.protects (v.supersede successor) ∧ v.protects (v.revoke now) :=
  ⟨⟨rfl, rfl, rfl, rfl, rfl, rfl, rfl, rfl⟩, ⟨rfl, rfl, rfl, rfl, rfl, rfl, rfl, rfl⟩⟩

end Updates

/-! ## Locks and refusals -/

/-- What a transaction of the registry can hold: rows it locked, unique keys it
inserted but did not commit, and advisory locks. -/
inductive Lock where
  | draft (id : Uuid)
  | pendingDraft (tenantId : Uuid) (registryType : RegistryType) (publicKey : Text)
  | project (tenantId id : Uuid)
  | ledgerConfig (tenantId : Uuid)
  | ledgerProject (tenantId projectId : Uuid)
  | entryId (id : Uuid)
  | entryKey (registryType : RegistryType) (publicKey : Text)
  | versionId (id : Uuid)
  | versionNumber (entryId : Uuid) (version : Nat)
  | version (id : Uuid)
  | anchorBatch (tenantId : Uuid)
  | batchRow (id : Uuid)
  | batchId (batchId : Text)
  | leafVersion (entryVersionId : Uuid)
  | creReportKey (tenantId : Uuid) (idempotencyKey : Text)
  | reportSequence (key : Uuid × Uuid × Text)
  deriving DecidableEq

/-- Why a request is answered with an error and its transaction rolled back. -/
inductive Refusal where
  | notFound (message : Text)
  | versionMismatch (resourceType : Text) (expected current : Nat)
  | draftPending
  | draftAlreadyDecided (state : DraftState)
  | selfPublication
  | keyTaken
  | anchorBatchEmpty
  | chainMismatch
  | observationExpired
  | reportInvalid
  /-- `CRE report must reference its approved project version` -/
  | reportScope
  | canonical (thrown : Canonical.Thrown)
  /-- A unique index refused a row and the route has no answer of its own. -/
  | uniqueViolation
  /-- The transaction has no statement left, or the worker is no request. -/
  | outOfTurn

/-- The `code` of the error envelope, where the route names one. -/
def Refusal.code : Refusal → Option Text
  | .notFound _ => some (units "NOT_FOUND")
  | .versionMismatch .. => some (units "RESOURCE_VERSION_MISMATCH")
  | .draftPending => some (units "REGISTRY_DRAFT_PENDING")
  | .draftAlreadyDecided _ => some (units "REGISTRY_DRAFT_ALREADY_DECIDED")
  | .selfPublication => some (units "REGISTRY_DRAFT_SELF_PUBLICATION")
  | .keyTaken => some (units "REGISTRY_KEY_TAKEN")
  | .anchorBatchEmpty => some (units "ANCHOR_BATCH_EMPTY")
  | .chainMismatch => some (units "REQUEST_INVALID")
  | .observationExpired => some (units "CRE_OBSERVATION_EXPIRED")
  | .reportInvalid | .reportScope | .canonical _ | .uniqueViolation | .outOfTurn => none

def assertVersionMatches (expected current : Nat) (resourceType : Text) : Except Refusal Unit :=
  if expected = current then .ok () else .error (.versionMismatch resourceType expected current)

end MpcRegistry.Registry
