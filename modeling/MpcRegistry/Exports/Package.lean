import MpcRegistry.Canonical.BatchIdentity
import MpcRegistry.Ecma.Date
import MpcRegistry.Exports.Records

/-!
# The package of a project export

Source: apps/jobs-worker/src/project-export.ts:33-244. The SHA-256 of a byte string in hex and
keccak-256 are parameters. An object's identity is its depth: what is assembled is a tree.
-/
namespace MpcRegistry.Exports
open Library Library.Outcome Canonical
open Registry (Uuid EntryStatus)

def exportFormat : Text := units "mpc.project-export"

def exportFormatVersion : Text := units "1"

def exportLimitations : List Text := [
  units "Raw source content, stored objects, attestation findings and citations are not included.",
  units "Fields that are not public are included only when the requester's clearance covers them.",
  units "Anchor proofs show inclusion in a batch; only a confirmed transaction makes it final.",
  units "This package is a snapshot at generatedAt and does not update."]

/-- A `Date` keeps the milliseconds of a timestamp. -/
def isoText (time : Instant) : Text := Ecma.toISOString (time / 1000)

def decimalInt (value : Int) : Text :=
  (if value < 0 then units "-" else []) ++ decimal value.natAbs

/-- `text(value)` of a column that may be null. -/
def text (value : Option Text) : JsValue := value.elim .null .str

/-- `iso(value)` -/
def iso (value : Option Instant) : JsValue := text (value.map isoText)

mutual

/-- Objects and arrays at `depth` and below it. -/
def toCanonical (depth : Nat) : ColumnValue → JsValue
  | .null => .null
  | .number text => .str text
  | .str value => .str value
  | .bool value => .bool value
  | .date time => .str (isoText time)
  | .array items => .array depth (toCanonicalItems (depth + 1) items)
  | .object members => .object depth true (toCanonicalMembers (depth + 1) members)

def toCanonicalItems (depth : Nat) : List ColumnValue → List JsValue
  | [] => []
  | item :: items => toCanonical depth item :: toCanonicalItems depth items

def toCanonicalMembers (depth : Nat) : List (Text × ColumnValue) → List (Text × JsValue)
  | [] => []
  | (key, value) :: members => (key, toCanonical depth value) :: toCanonicalMembers depth members

end

def textArray (depth : Nat) (values : List Text) : JsValue := .array depth (values.map .str)

/-- `job.sensitivity_clearance.includes("restricted")` -/
def ExportJob.restricted (job : ExportJob) : Bool :=
  units "restricted" ∈ job.sensitivityClearance

def ExportJob.clears (job : ExportJob) (r : SourceReceipt) : Bool :=
  r.disclosurePermission.text ∈ job.sensitivityClearance

def ExportJob.gated (job : ExportJob) (value : ColumnValue) : JsValue :=
  if job.restricted then toCanonical 2 value else .null

/-! ## The items of the sections -/

def versionItem (row : VersionRow) : JsValue :=
  .object 1 true [
    (units "entryId", .str row.version.entryId),
    (units "registryType", .str row.registryType.text),
    (units "publicKey", .str row.publicKey),
    (units "versionId", .str row.version.id),
    (units "version", .str (decimalInt row.version.version)),
    (units "status", .str row.version.status.text),
    (units "contentHash", text row.version.contentHash),
    (units "sourceSnapshotHash", .str row.version.sourceSnapshotHash),
    (units "policyVersion", .str row.version.policyVersion),
    (units "schemaVersion", .str row.version.schemaVersion),
    (units "serializationVersion", .str row.version.serializationVersion),
    (units "publicProjection",
      if row.version.status = .draft then .null else toCanonical 2 row.version.publicProjection),
    (units "publishedAt", iso row.version.publishedAt),
    (units "revokedAt", iso row.version.revokedAt),
    (units "supersededById", text row.version.supersededById)]

section Job

variable (job : ExportJob)

def attestationItem (a : Attestation) : JsValue :=
  .object 1 true [
    (units "id", .str a.id),
    (units "caseId", .str a.caseId),
    (units "attestationType", .str a.attestationType),
    (units "schemaId", .str a.schemaId),
    (units "state", .str a.state),
    (units "payloadHash", .str a.payloadHash),
    (units "evidenceSnapshotHash", .str a.evidenceSnapshotHash),
    (units "methodVersion", .str a.methodVersion),
    (units "policyVersion", .str a.policyVersion),
    (units "signedAt", .str (isoText a.signedAt)),
    (units "validUntil", iso a.validUntil),
    (units "supersedesId", text a.supersedesId),
    (units "revokesId", text a.revokesId),
    (units "signerWalletAddress", job.gated (.str a.signerWalletAddress)),
    (units "limitations", job.gated (.str a.limitations))]

def clearedReceipt (r : SourceReceipt) : JsValue :=
  .object 1 true [
    (units "id", .str r.id),
    (units "disclosurePermission", .str r.disclosurePermission.text),
    (units "redacted", .bool false),
    (units "authorityId", .str r.authorityId),
    (units "collectionMethod", .str r.collectionMethod),
    (units "result", .str r.result),
    (units "rawHash", text r.rawHash),
    (units "endpointOrDocumentRef", job.gated (.str r.endpointOrDocumentRef)),
    (units "sourceSchemaVersion", .str r.sourceSchemaVersion),
    (units "adapterVersion", .str r.adapterVersion),
    (units "normalizationVersion", text r.normalizationVersion),
    (units "termsLicense", .str r.termsLicense),
    (units "commercialReuse", .str r.commercialReuse),
    (units "receivedAt", .str (isoText r.receivedAt)),
    (units "asOf", .str (isoText r.asOf)),
    (units "effectiveAt", iso r.effectiveAt),
    (units "freshnessStatus", .str r.freshnessStatus),
    (units "limitations", toCanonical 2 (.texts r.limitations))]

def redactedReceipt (r : SourceReceipt) : JsValue :=
  .object 1 true [
    (units "id", .str r.id),
    (units "disclosurePermission", .str r.disclosurePermission.text),
    (units "redacted", .bool true)]

def receiptItem (r : SourceReceipt) : JsValue :=
  if job.clears r then clearedReceipt job r else redactedReceipt r

def decisionItem (d : GateDecision) : JsValue :=
  .object 1 true [
    (units "id", .str d.id),
    (units "gateId", .str d.gateId),
    (units "decision", .str d.decision),
    (units "inputAssessmentId", .str d.inputAssessmentId),
    (units "evidenceSnapshotHash", .str d.evidenceSnapshotHash),
    (units "decisionAuthority", .str d.decisionAuthority),
    (units "signedAt", .str (isoText d.signedAt)),
    (units "decisionMakerSubjectId", job.gated (.str d.decisionMakerSubjectId)),
    (units "rationale", job.gated (.str d.rationale)),
    (units "assumptions", job.gated (.texts d.assumptions)),
    (units "conditions", job.gated (.texts d.conditions))]

end Job

/-- Without a transaction the state is that of one not sent yet. -/
def proofItem (keccak_256 : Bytes → Digest) (batchLeaves : List (Uuid × List Text))
    (row : AnchorLeafRow) : Except Thrown JsValue := do
  let tree ← buildMerkleTree keccak_256 ((batchLeaves.lookup row.batchRowId).getD [])
  let proof ← getMerkleProof tree row.leafHash
  .ok (.object 1 true [
    (units "entryVersionId", .str row.entryVersionId),
    (units "batchId", .str row.externalBatchId),
    (units "merkleRoot", .str row.merkleRoot),
    (units "computedRoot", .str tree.root),
    (units "leafHash", .str row.leafHash),
    (units "proof", textArray 2 proof),
    (units "chainId", text (row.transaction.map fun t => decimalInt t.chainId)),
    (units "transactionState", .str ((row.transaction.map (·.state)).getD (units "created"))),
    (units "transactionHash", text (row.transaction.bind (·.txHash))),
    (units "blockNumber", text ((row.transaction.bind (·.blockNumber)).map decimalInt))])

/-! ## Sections and manifest -/

/-- `value[key]` of an object. -/
def member (key : Text) : JsValue → Option JsValue
  | .object _ _ members => members.lookup key
  | _ => none

structure ExportPackage where
  manifest : JsValue
  sections : List (Text × List JsValue)

def sha256Hex (sha256 : Bytes → Text) (value : JsValue) : Except Thrown Text := do
  let serialized ← serializeValue value [] []
  .ok (sha256 (Utf16.encodeUtf8 serialized))

def isRedacted (item : JsValue) : Bool :=
  match member (units "redacted") item with
  | some (.bool value) => value
  | _ => false

def sectionEntry (sha256 : Bytes → Text) (entry : Text × List JsValue) : Except Thrown JsValue := do
  let hash ← sha256Hex sha256 (.array 0 entry.2)
  .ok (.object 2 true [
    (units "name", .str entry.1),
    (units "count", .str (decimal entry.2.length)),
    (units "redacted", .str (decimal (entry.2.filter isRedacted).length)),
    (units "sha256", .str hash)])

def assembleExportPackage (keccak_256 : Bytes → Digest) (sha256 : Bytes → Text) (job : ExportJob)
    (records : ExportRecords) (generatedAt : Instant) : Except Thrown (ExportPackage × Text) := do
  let registryVersions := records.registryVersions.map versionItem
  let attestations := records.attestations.map (attestationItem job)
  let sourceReceipts := records.sourceReceipts.map (receiptItem job)
  let gateDecisions := records.gateDecisions.map (decisionItem job)
  let anchorProofs ← records.anchorLeaves.mapM (proofItem keccak_256 records.batchLeaves)
  let sections := [
    (units "registryVersions", registryVersions),
    (units "attestations", attestations),
    (units "sourceReceipts", sourceReceipts),
    (units "gateDecisions", gateDecisions),
    (units "anchorProofs", anchorProofs)]
  let sectionEntries ← sections.mapM (sectionEntry sha256)
  let manifest := .object 0 true [
    (units "format", .str exportFormat),
    (units "formatVersion", .str exportFormatVersion),
    (units "exportId", .str job.id),
    (units "projectId", .str records.project.id),
    (units "projectKey", .str records.project.projectKey),
    (units "requestedBySubjectId", .str job.requestedBySubjectId),
    (units "requestedByWallet", text job.requestedByWallet),
    (units "requestedAt", .str (isoText job.requestedAt)),
    (units "generatedAt", .str (isoText generatedAt)),
    (units "sensitivityClearance", textArray 1 job.sensitivityClearance),
    (units "canonicalization", .str (units "RFC8785-JCS, numbers as decimal strings")),
    (units "hashAlgorithm", .str (units "sha256")),
    (units "sections", .array 1 sectionEntries),
    (units "limitations", textArray 1 exportLimitations)]
  let manifestHash ← sha256Hex sha256 manifest
  .ok ({ manifest, sections }, manifestHash)

/-- What a build of the job makes of the database at one time. -/
def buildPackage (keccak_256 : Bytes → Digest) (sha256 : Bytes → Text) (job : ExportJob)
    (generatedAt : Instant) (db : Db) : Except Thrown (ExportPackage × Text) := do
  let records ← loadExportRecords db job
  assembleExportPackage keccak_256 sha256 job records generatedAt

end MpcRegistry.Exports
