import MpcRegistry.Library.Table

/-!
# The documents of a project and the links between them

Source: packages/db/migrations/0007_object_uploads.sql and 0045_document_impact.sql.
Columns that no function here reads are left out.
-/
namespace MpcRegistry.Documents
open Library

abbrev Uuid := Nat

/-- A `DATE`, counted in days. -/
abbrev Day := Int

/-- A `TIMESTAMPTZ`, in microseconds. -/
abbrev Instant := Nat

/-- `(t AT TIME ZONE 'UTC')::date` -/
def dayOf (t : Instant) : Day := (t / 86400000000 : Nat)

/-! ## Uploads -/

inductive UploadState where
  | received | quarantined | scannedClean | scannedInfected | promoted | rejected
  deriving DecidableEq, Repr

/-- `core.object_uploads` -/
structure Upload where
  id : Uuid
  projectId : Uuid
  state : UploadState
  validUntil : Option Day
  supersedesUploadId : Option Uuid
  revokedAt : Option Instant
  deriving DecidableEq, Repr

/-- `core.document_successor` -/
def documentSuccessor (uploads : List Upload) (id : Uuid) : Option Uuid :=
  (uploads.find? fun s => s.supersedesUploadId = some id && s.state = .promoted).map Upload.id

/-! ## Links -/

inductive LinkKind where
  | dependsOn | references
  deriving DecidableEq, Repr

/-- `core.document_links` -/
structure DocumentLink where
  id : Uuid
  upstreamUploadId : Uuid
  downstreamUploadId : Uuid
  kind : LinkKind
  removedAt : Option Instant
  deriving DecidableEq, Repr

def DocumentLink.isActive (link : DocumentLink) : Bool := link.removedAt.isNone

/-- A row of the recursive query of `core.document_impact_targets`. -/
structure WalkRow where
  uploadId : Uuid
  depth : Nat
  viaUploadId : Uuid
  viaKind : LinkKind
  deriving DecidableEq, Repr

def WalkRow.along (depth : Nat) (link : DocumentLink) : WalkRow :=
  { uploadId := link.downstreamUploadId, depth, viaUploadId := link.upstreamUploadId,
    viaKind := link.kind }

/-- The rows found `depth + 1` links from the origin. -/
def walk (links : List DocumentLink) (origin : Uuid) : Nat → List WalkRow
  | 0 => (links.filter fun l => l.upstreamUploadId = origin && l.isActive).map (WalkRow.along 1)
  | depth + 1 =>
    ((walk links origin depth).filter (·.viaKind = .dependsOn)).flatMap fun w =>
      (links.filter fun l => l.upstreamUploadId = w.uploadId && l.isActive &&
        l.downstreamUploadId ≠ origin).map (WalkRow.along (depth + 2))

/-- The rows up to a depth, one for each document: the first by depth, and `depends_on`
before `references`. Which of several such documents above it is taken, the query leaves open. -/
def nearest (links : List DocumentLink) (origin : Uuid) : Nat → Table WalkRow.uploadId
  | 0 => .empty
  | depth + 1 =>
    ((walk links origin depth).filter (·.viaKind = .dependsOn) ++
      (walk links origin depth).filter (·.viaKind = .references)).foldl
        (fun t row => t.insertIfAbsent row) (nearest links origin depth)

/-- `core.document_impact_targets` -/
def documentImpactTargets (links : List DocumentLink) (origin : Uuid) : List WalkRow :=
  (nearest links origin 64).rows

inductive ImpactResolution where
  | open | revised | noChangeNeeded | notApplicable
  deriving DecidableEq, Repr

/-- `core.document_impacts` -/
structure DocumentImpact where
  id : Uuid
  uploadId : Uuid
  resolution : ImpactResolution
  deriving DecidableEq, Repr

end MpcRegistry.Documents
