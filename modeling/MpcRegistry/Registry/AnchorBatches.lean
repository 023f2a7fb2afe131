import MpcRegistry.Registry.Tables
import MpcRegistry.Canonical.Leaf
import MpcRegistry.Canonical.Merkle

/-!
# Anchor batches and inclusion proofs

Source: apps/api/src/services/anchor-batch.ts:22-194, apps/api/src/routes/registry.ts:463-541,
packages/db/migrations/0046_current_function_definitions.sql:475-530,
apps/api/src/routes/public.ts:239-252. The transaction row that the chain worker submits is
another table and is left out, as is where a proof says its anchor stands on chain.
-/
namespace MpcRegistry.Registry
open Library ReadCommitted Canonical

structure PublishedVersionRow where
  id : Uuid
  registryType : RegistryType
  subjectId : Uuid
  version : Nat
  status : EntryStatus
  contentHash : Text
  policyVersion : Text
  schemaVersion : Text
  serializationVersion : Text
  deriving DecidableEq, Repr

def toRegistryLeaf (row : PublishedVersionRow) : RegistryLeaf where
  registryType := row.registryType.text
  entryVersionId := row.id
  subjectId := row.subjectId
  version := decimal row.version
  status := row.status.text
  serializationVersion := units "1"
  policyVersion := row.policyVersion
  schemaVersion := row.schemaVersion
  contentHash := row.contentHash

/-- The columns of `registry_entry_versions v JOIN registry_entries e ON e.id = v.entry_id`. -/
def publishedRow (entry : Entry) (v : EntryVersion) : PublishedVersionRow where
  id := v.id
  registryType := entry.registryType
  subjectId := entry.subjectId
  version := v.version
  status := v.status
  contentHash := v.contentHash
  policyVersion := v.policyVersion
  schemaVersion := v.schemaVersion
  serializationVersion := v.serializationVersion

/-- Whether the version is a leaf. The query runs over the leaves of all tenants. -/
def Db.anchored (db : Db) (versionId : Uuid) : Bool :=
  db.leaves.rows.any (·.entryVersionId = versionId)

/-- What `buildAnchorBatch` selects, `ORDER BY v.created_at`. -/
def Db.unanchored (db : Db) (tenantId : Uuid) : List PublishedVersionRow :=
  let versions := db.versions.rows.filter fun v =>
    v.tenantId = tenantId && v.status ≠ .draft && !db.anchored v.id
  (versions.insertionSort fun a b => a.createdAt ≤ b.createdAt).flatMap fun v =>
    (db.entries.rows.filter fun entry => entry.id = v.entryId ∧ entry.tenantId = tenantId).map
      fun entry => publishedRow entry v

structure BuiltLeaf where
  entryVersionId : Uuid
  leafHash : Text
  deriving DecidableEq, Repr

structure BuiltBatch where
  batchId : Text
  root : Text
  manifestHash : Text
  recordCount : Nat
  leaves : List BuiltLeaf
  manifest : JsValue

/-- The manifest lists the leaves by their hash. -/
def batchManifest (root : Text) (leaves : List BuiltLeaf) : JsValue :=
  .object 0 true [
    (units "manifestVersion", .str (units "1")),
    (units "serializationVersion", .str (units "1")),
    (units "recordCount", .str (decimal leaves.length)),
    (units "root", .str root),
    (units "leaves", .array 1
      ((leaves.insertionSort fun a b => a.leafHash ≤ b.leafHash).map fun leaf =>
        .object 2 true [
          (units "entryVersionId", .str leaf.entryVersionId),
          (units "leafHash", .str leaf.leafHash)]))]

section Keccak

variable (keccak_256 : Bytes → Digest)

def buildLeaf (row : PublishedVersionRow) : Except Canonical.Thrown BuiltLeaf := do
  let leafHash ← hashLeaf keccak_256 (toRegistryLeaf row)
  .ok { entryVersionId := row.id, leafHash }

/-- What follows the empty check. `uuid` is what `randomUUID` returns. -/
def buildFromRows (rows : List PublishedVersionRow) (uuid : Uuid) :
    Except Canonical.Thrown BuiltBatch := do
  let leaves ← rows.mapM (buildLeaf keccak_256)
  let tree ← buildMerkleTree keccak_256 (leaves.map (·.leafHash))
  let batchId ← hashValue keccak_256
    (.object 0 true [(units "batch", .str uuid), (units "root", .str tree.root)])
  let manifestHash ← hashValue keccak_256 (batchManifest tree.root leaves)
  .ok {
    batchId
    root := tree.root
    manifestHash
    recordCount := leaves.length
    leaves
    manifest := batchManifest tree.root leaves }

def buildAnchorBatch (db : Db) (tenantId uuid : Uuid) : Except Refusal BuiltBatch :=
  let rows := db.unanchored tenantId
  if rows.length = 0 then .error .anchorBatchEmpty
  else
    match buildFromRows keccak_256 rows uuid with
    | .error thrown => .error (.canonical thrown)
    | .ok batch => .ok batch

end Keccak

/-- The route. `inserting` has the leaves already inserted and those still to be. -/
inductive Batching where
  | begun (tenantId : Uuid)
  | locked (tenantId : Uuid)
  | built (tenantId : Uuid) (batch : BuiltBatch)
  | inserting (row : AnchorBatch) (done rest : List AnchorBatchLeaf)

/-- `INSERT INTO chain.anchor_batches` -/
def BuiltBatch.row (batch : BuiltBatch) (id tenantId : Uuid) : AnchorBatch where
  id := id
  tenantId := tenantId
  batchId := batch.batchId
  merkleRoot := batch.root
  manifestHash := batch.manifestHash
  manifestObjectKey := units "manifests/" ++ batch.batchId ++ units ".json"
  schemaVersion := units "1"
  recordCount := batch.recordCount

/-- The rows of the loop over `batch.leaves.entries()`. -/
def BuiltBatch.leafRows (batch : BuiltBatch) (id : Uuid) : List AnchorBatchLeaf :=
  batch.leaves.mapIdx fun index leaf => {
    batchId := id
    leafHash := leaf.leafHash
    entryVersionId := leaf.entryVersionId
    leafIndex := index }

namespace Batching

def next (keccak_256 : Bytes → Digest) (db : Db) (uuid : Uuid) :
    Batching → Except Refusal Batching
  | begun tenantId => .ok (locked tenantId)
  | locked tenantId => do
    let batch ← buildAnchorBatch keccak_256 db tenantId uuid
    .ok (built tenantId batch)
  | built tenantId batch =>
    let row := batch.row uuid tenantId
    if ∃ other ∈ db.batches.rows, other.id = row.id ∨ other.batchId = row.batchId then
      .error .uniqueViolation
    else .ok (inserting row [] (batch.leafRows row.id))
  | inserting row done (leaf :: rest) =>
    -- one leaf for each version, and one of each hash in a batch
    if ∃ other ∈ db.leaves.rows ++ done, other.entryVersionId = leaf.entryVersionId ∨
        other.batchId = leaf.batchId ∧ other.leafHash = leaf.leafHash then .error .uniqueViolation
    else .ok (inserting row (done ++ [leaf]) rest)
  | inserting _ _ [] => .error .outOfTurn

def locks : Batching → List (Lock × LockMode)
  | begun _ => []
  | locked tenantId => [(.anchorBatch tenantId, .exclusive)]
  | built tenantId _ => [(.anchorBatch tenantId, .exclusive)]
  | inserting row done _ =>
    (.anchorBatch row.tenantId, .exclusive) :: (.batchRow row.id, .exclusive) ::
      (.batchId row.batchId, .exclusive) ::
        done.map fun leaf => (.leafVersion leaf.entryVersionId, .exclusive)

def effect : Batching → Option (Db → Db)
  | inserting row done [] => some fun db => { db with
      batches := db.batches.insertIfAbsent row
      leaves := done.foldl (fun leaves leaf => leaves.insertIfAbsent leaf) db.leaves }
  | _ => none

end Batching

/-! ## Inclusion proofs -/

structure InclusionProof where
  leafHash : Text
  proof : List Text
  root : Text
  batchId : Text
  policyVersion : Text
  schemaVersion : Text
  serializationVersion : Text
  deriving DecidableEq, Repr

/-- A row of `core.public_inclusion_proof`. -/
structure InclusionRow where
  leaf : AnchorBatchLeaf
  batch : AnchorBatch
  version : EntryVersion

/-- `core.public_inclusion_proof`: the leaf of a version with its batch and its version. -/
def Db.publicInclusionProof (db : Db) (entryVersionId : Uuid) : Option InclusionRow := do
  let leaf ← db.leaves.rows.find? (·.entryVersionId = entryVersionId)
  let batch ← db.batches.rows.find? (·.id = leaf.batchId)
  let version ← db.versions.rows.find? fun v => v.id = leaf.entryVersionId ∧ v.status ≠ .draft
  some { leaf, batch, version }

/-- `buildInclusionProof`, from the row and what `core.public_batch_leaves` returned. -/
def buildInclusionProof (keccak_256 : Bytes → Digest) (row : InclusionRow)
    (siblings : List Text) : Except Canonical.Thrown InclusionProof := do
  let tree ← buildMerkleTree keccak_256 siblings
  let proof ← getMerkleProof tree row.leaf.leafHash
  .ok {
    leafHash := row.leaf.leafHash
    proof
    root := row.batch.merkleRoot
    batchId := row.batch.batchId
    policyVersion := row.version.policyVersion
    schemaVersion := row.version.schemaVersion
    serializationVersion := row.version.serializationVersion }

end MpcRegistry.Registry
