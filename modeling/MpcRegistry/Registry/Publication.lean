import MpcRegistry.Registry.Tables

/-!
# Drafts, publication and revocation

Source: apps/api/src/routes/registry.ts:130-459, apps/api/src/routes/registry-drafts.ts:84-95,
270-417, packages/db/migrations/0086_scoped_ledger_publication_lock.sql:6-25. A point of a
request holds what its statements have read and written so far. What a request
compares with other tables (the subject, restrictions, the ledger, the
allowlist) can only refuse it, which an abort at that point stands for. Foreign
keys and statements on other tables only add waiting.
-/
namespace MpcRegistry.Registry
open Library ReadCommitted Canonical

/-! ## Drafts -/

/-- Creating a draft, and rejecting one. -/
inductive Drafting where
  | begun (draft : Draft)
  | inserted (draft : Draft)
  | rejectBegun (tenantId draftId decider : Uuid) (expected : Nat)
  | rejectLocked (draft : Draft) (decider : Uuid)
  | rejected (draft : Draft) (decider : Uuid)

/-- The row of a tenant by its id. -/
def Db.draftById (db : Db) (tenantId draftId : Uuid) : Option Draft :=
  db.drafts.rows.find? fun draft => draft.tenantId = tenantId ∧ draft.id = draftId

theorem draftById_eq_some {db : Db} {tenantId draftId : Uuid} {draft : Draft}
    (h : db.draftById tenantId draftId = some draft) :
    draft ∈ db.drafts ∧ draft.tenantId = tenantId ∧ draft.id = draftId := by
  have hfound := List.find?_some h
  simp only [decide_eq_true_eq] at hfound
  exact ⟨List.mem_of_find?_eq_some h, hfound⟩

def Draft.decide (state : DraftState) (decider : Uuid) (entryVersionId : Option Uuid)
    (draft : Draft) : Draft :=
  { draft with
    state := state
    decidedBySubjectId := some decider
    entryVersionId := entryVersionId
    version := draft.version + 1 }

/-- `SET state = 'rejected'` -/
def Db.rejectDraft (draft : Draft) (decider : Uuid) (db : Db) : Db :=
  { db with
    drafts := db.drafts.update (·.id = draft.id) (Draft.decide .rejected decider none)
      fun _ => rfl }

namespace Drafting

def next (db : Db) : Drafting → Except Refusal Drafting
  | begun draft =>
    -- `registry_drafts_one_pending_idx`, and the guard that a draft starts as pending
    if draft.state ≠ .pending then .error .uniqueViolation
    else if ∃ other ∈ db.drafts.rows, other.state = .pending ∧ other.tenantId = draft.tenantId ∧
        other.registryType = draft.registryType ∧ other.publicKey = draft.publicKey then
      .error .draftPending
    else if ∃ other ∈ db.drafts.rows, other.id = draft.id then .error .uniqueViolation
    else .ok (inserted draft)
  | inserted _ => .error .outOfTurn
  | rejectBegun tenantId draftId decider expected =>
    match db.draftById tenantId draftId with
    | none => .error (.notFound (units "Draft not found"))
    | some draft => do
      assertVersionMatches expected draft.version (units "registry_publication_draft")
      if draft.state ≠ .pending then .error (.draftAlreadyDecided draft.state)
      else .ok (rejectLocked draft decider)
  | rejectLocked draft decider => .ok (rejected draft decider)
  | rejected _ _ => .error .outOfTurn

def locks : Drafting → List (Lock × LockMode)
  | begun _ => []
  | inserted draft =>
    [(.draft draft.id, .exclusive),
      (.pendingDraft draft.tenantId draft.registryType draft.publicKey, .exclusive)]
  | rejectBegun .. => []
  | rejectLocked draft _ => [(.draft draft.id, .exclusive)]
  | rejected draft _ => [(.draft draft.id, .exclusive)]

def effect : Drafting → Option (Db → Db)
  | inserted draft => some fun db => { db with drafts := db.drafts.insertIfAbsent draft }
  | rejected draft decider => some (Db.rejectDraft draft decider)
  | _ => none

end Drafting

/-! ## Publication -/

structure PublishRequest where
  tenantId : Uuid
  draftId : Uuid
  publisher : Uuid
  expectedDraftVersion : Nat
  deriving DecidableEq, Repr

/-- The draft, what is published of it and when the transaction began. -/
structure Plan where
  draft : Draft
  publisher : Uuid
  now : Nat
  projection : Projection
  contentHash : Text

/-- The entry the version goes to; `fresh` when this transaction inserts it. -/
structure Placement extends Plan where
  entry : Entry
  fresh : Bool

/-- The latest version that was read, and the next one. -/
structure Work extends Placement where
  previous : Option EntryVersion
  version : EntryVersion

inductive Publishing where
  | begun (request : PublishRequest) (now : Nat)
  | draftLocked (draft : Draft) (publisher : Uuid) (now : Nat)
  | ledgerLocked (draft : Draft) (publisher : Uuid) (now : Nat)
  | inputsLocked (draft : Draft) (publisher : Uuid) (now : Nat)
  | hashed (plan : Plan)
  | entryMissing (plan : Plan)
  | entryReady (placement : Placement)
  | previousRead (placement : Placement) (previous : Option EntryVersion)
  | versionInserted (work : Work)
  | previousSuperseded (work : Work)
  | draftDecided (work : Work)

/-- `INSERT INTO core.registry_entry_versions` -/
def Placement.nextVersion (placement : Placement) (previous : Option EntryVersion)
    (versionId : Uuid) : EntryVersion where
  id := versionId
  tenantId := placement.draft.tenantId
  entryId := placement.entry.id
  version := (previous.elim 0 (·.version)) + 1
  status := .published
  publicProjection := placement.projection.stored
  contentHash := placement.contentHash
  sourceSnapshotHash := placement.draft.sourceSnapshotHash
  policyVersion := placement.draft.policyVersion
  schemaVersion := placement.draft.schemaVersion
  serializationVersion := units "1"
  previousVersionId := previous.map (·.id)
  publishedAt := some placement.now
  revokedAt := none
  supersededById := none
  createdAt := placement.now

/-- `lock_ledger_publication_inputs` -/
def ledgerLocks (tenantId projectId : Uuid) : List (Lock × LockMode) :=
  [(.ledgerConfig tenantId, .share), (.ledgerProject tenantId projectId, .exclusive),
    (.project tenantId projectId, .exclusive)]

namespace Publishing

/-- The draft's own lock and the ledger's, when the projection has one. -/
def evidenceLocks (draft : Draft) : List (Lock × LockMode) :=
  (.draft draft.id, .exclusive) ::
    if (draft.projection.read (units "evidenceLedger")).isSome then
      ledgerLocks draft.tenantId draft.subjectId
    else []

/-- With the row of the project, when it is what is published. -/
def inputLocks (draft : Draft) : List (Lock × LockMode) :=
  evidenceLocks draft ++
    if draft.registryType = .project then [(.project draft.tenantId draft.subjectId, .exclusive)]
    else []

def placementLocks (placement : Placement) : List (Lock × LockMode) :=
  inputLocks placement.draft ++
    if placement.fresh then
      [(.entryId placement.entry.id, .exclusive),
        (.entryKey placement.entry.registryType placement.entry.publicKey, .exclusive)]
    else []

def versionLocks (work : Work) : List (Lock × LockMode) :=
  placementLocks work.toPlacement ++
    [(.versionId work.version.id, .exclusive),
      (.versionNumber work.version.entryId work.version.version, .exclusive)]

/-- With the row that is superseded. -/
def workLocks (work : Work) : List (Lock × LockMode) :=
  versionLocks work ++ work.previous.toList.map fun previous => (.version previous.id, .exclusive)

def locks : Publishing → List (Lock × LockMode)
  | begun _ _ => []
  | draftLocked draft _ _ => [(.draft draft.id, .exclusive)]
  | ledgerLocked draft _ _ => evidenceLocks draft
  | inputsLocked draft _ _ => inputLocks draft
  | hashed plan => inputLocks plan.draft
  | entryMissing plan => inputLocks plan.draft
  | entryReady placement => placementLocks placement
  | previousRead placement _ => placementLocks placement
  | versionInserted work => versionLocks work
  | previousSuperseded work => workLocks work
  | draftDecided work => workLocks work

/-- One statement. `uuid` is what `randomUUID` returns and `publishedStatus`
what `resolvePublicationSubject` read. -/
def next (keccak_256 : Bytes → Digest) (db : Db) (uuid : Uuid) (publishedStatus : Text) :
    Publishing → Except Refusal Publishing
  | begun request now =>
    match db.draftById request.tenantId request.draftId with
    | none => .error (.notFound (units "Draft not found"))
    | some draft => do
      assertVersionMatches request.expectedDraftVersion draft.version
        (units "registry_publication_draft")
      if draft.state ≠ .pending then .error (.draftAlreadyDecided draft.state)
      else if draft.proposedBySubjectId = request.publisher then .error .selfPublication
      else .ok (draftLocked draft request.publisher now)
  | draftLocked draft publisher now => .ok (ledgerLocked draft publisher now)
  | ledgerLocked draft publisher now => .ok (inputsLocked draft publisher now)
  | inputsLocked draft publisher now =>
    let projection := draft.projection.withStatus publishedStatus
    match hashProjection keccak_256 projection with
    | .error thrown => .error (.canonical thrown)
    | .ok contentHash => .ok (hashed { draft, publisher, now, projection, contentHash })
  | hashed plan =>
    match db.entryFor plan.draft.tenantId plan.draft.registryType plan.draft.publicKey with
    | some entry =>
      if entry.subjectId ≠ plan.draft.subjectId then .error .keyTaken
      else .ok (entryReady { toPlan := plan, entry, fresh := false })
    | none => .ok (entryMissing plan)
  | entryMissing plan =>
    let entry : Entry := {
      id := uuid
      tenantId := plan.draft.tenantId
      registryType := plan.draft.registryType
      subjectId := plan.draft.subjectId
      publicKey := plan.draft.publicKey }
    -- the key is unique across tenants
    if ∃ other ∈ db.entries.rows, other.registryType = entry.registryType ∧
        other.publicKey = entry.publicKey then .error .keyTaken
    else if ∃ other ∈ db.entries.rows, other.id = entry.id then .error .uniqueViolation
    else .ok (entryReady { toPlan := plan, entry, fresh := true })
  | entryReady placement =>
    .ok (previousRead placement
      (db.versionsDesc placement.draft.tenantId placement.entry.id).head?)
  | previousRead placement previous =>
    let version := placement.nextVersion previous uuid
    if ∃ other ∈ db.versions.rows, other.entryId = version.entryId ∧
        other.version = version.version then .error .uniqueViolation
    else if ∃ other ∈ db.versions.rows, other.id = version.id then .error .uniqueViolation
    else .ok (versionInserted { toPlacement := placement, previous, version })
  | versionInserted work => .ok (previousSuperseded work)
  | previousSuperseded work => .ok (draftDecided work)
  | draftDecided _ => .error .outOfTurn

end Publishing

/-- The row the `UPDATE` of the previous version selects. -/
def Work.supersedes (work : Work) (v : EntryVersion) : Bool :=
  work.previous.any (·.id = v.id)

/-- What the transaction wrote. -/
def Work.apply (work : Work) (db : Db) : Db :=
  { db with
    entries := if work.fresh then db.entries.insertIfAbsent work.entry else db.entries
    versions := (db.versions.insertIfAbsent work.version).update work.supersedes
      (EntryVersion.supersede work.version.id) fun _ => rfl
    drafts := db.drafts.update (·.id = work.draft.id)
      (Draft.decide .published work.publisher (some work.version.id)) fun _ => rfl }

def Publishing.effect : Publishing → Option (Db → Db)
  | .draftDecided work => some work.apply
  | _ => none

/-! ## Revocation -/

structure RevokeRequest where
  tenantId : Uuid
  entryId : Uuid
  expectedVersion : Nat
  deriving DecidableEq, Repr

/-- `scanning` has the snapshot of the query; its rows are locked one by one
until one of them still qualifies, which `LIMIT 1` ends. -/
inductive Revoking where
  | begun (request : RevokeRequest) (now : Nat)
  | scanning (request : RevokeRequest) (now : Nat) (candidates : List Uuid)
  | locked (request : RevokeRequest) (now : Nat) (version : EntryVersion)
  | revoked (now : Nat) (version : EntryVersion)

/-- `SET status = 'revoked'` on the locked version. -/
def Db.revokeVersion (now : Nat) (version : EntryVersion) (db : Db) : Db :=
  { db with
    versions := db.versions.update (·.id = version.id) (EntryVersion.revoke now) fun _ => rfl }

namespace Revoking

def next (db : Db) : Revoking → Except Refusal Revoking
  | begun request now =>
    .ok (scanning request now
      (((db.versionsDesc request.tenantId request.entryId).filter (·.status = .published)).map
        (·.id)))
  | scanning _ _ [] => .error (.notFound (units "Published version not found"))
  | scanning request now (candidate :: rest) =>
    match db.versions.rows.find? fun v => v.id = candidate ∧ v.status = .published with
    | some version => .ok (locked request now version)
    | none => .ok (scanning request now rest)
  | locked request now version => do
    assertVersionMatches request.expectedVersion version.version (units "registry_entry_version")
    .ok (revoked now version)
  | revoked _ _ => .error .outOfTurn

def locks : Revoking → List (Lock × LockMode)
  | begun _ _ => []
  | scanning _ _ _ => []
  | locked _ _ version => [(.version version.id, .exclusive)]
  | revoked _ version => [(.version version.id, .exclusive)]

def effect : Revoking → Option (Db → Db)
  | revoked now version => some (Db.revokeVersion now version)
  | _ => none

end Revoking

end MpcRegistry.Registry
