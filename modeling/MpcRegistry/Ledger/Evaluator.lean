import MpcRegistry.Ledger.Tables

/-!
# The private evaluator

Source: `core.ledger_claim_health` (packages/db/migrations/0084_evidence_ledger.sql:27-78) and
packages/db/src/evidence-ledger.ts:39-60, 114-174, 244-251. What the stage rules make of the
items is left open: a snapshot is taken with any stages.
-/
namespace MpcRegistry.Ledger
open Library Utf16 Documents
open Policy (Grade)
open Lifecycle (ConfirmationStatus)

/-! ## Claims and their health -/

/-- A row of `core.ledger_claim_health`. -/
structure LedgerClaim where
  id : Uuid
  claimType : Text
  catalogEntryId : Uuid
  catalogVersion : Nat
  grade : Grade
  stale : Bool
  hasEvidence : Bool
  conflictIds : List Uuid
  excludedByRule : Bool
  deriving DecidableEq, Repr

namespace Db

/-- `claim_uploads` -/
def claimUploads (db : Db) (c : Claim) : List Upload :=
  db.uploads.rows.filter fun u => u.projectId = c.projectId &&
    (u.id ∈ c.documentUploadIds || db.receipts.rows.any fun r =>
      c.sourceReceiptId = some r.id && r.documentUploadId = some u.id)

/-- A document revoked, past its date or replaced. -/
def isOutdated (db : Db) (asof : Instant) (u : Upload) : Bool :=
  u.revokedAt.isSome || u.validUntil.any (· < dayOf asof) ||
    (documentSuccessor db.uploads.rows u.id).isSome

/-- A document that a claim can no longer rest on, or one that rests on such a document. -/
def isStaleUpload (db : Db) (project : Uuid) (asof : Instant) (u : Upload) : Bool :=
  db.isOutdated asof u || u.state = .rejected || u.state = .scannedInfected ||
    db.impacts.rows.any (fun i => i.uploadId = u.id && i.resolution = .open) ||
    db.uploads.rows.any fun upstream => upstream.projectId = project &&
      (documentImpactTargets db.links.rows upstream.id).any (·.uploadId = u.id) &&
        db.isOutdated asof upstream

def isStaleClaim (db : Db) (asof : Instant) (c : Claim) : Bool :=
  c.asOf.any (dayOf asof < ·) || c.staleSince.any (· ≤ asof) ||
    db.signals.rows.any (fun s => s.projectId = some c.projectId && s.originClaimId = some c.id &&
      s.isOpen) ||
    (db.claimUploads c).any (db.isStaleUpload c.projectId asof)

def hasEvidence (db : Db) (c : Claim) : Bool :=
  (!(db.claimUploads c).isEmpty || db.receipts.rows.any fun r => c.sourceReceiptId = some r.id &&
    r.projectId = some c.projectId && r.confirmedFromSource && r.freshnessStatus = units "fresh") &&
  !(db.claimUploads c).any fun u => u.state ≠ .promoted || u.revokedAt.isSome

/-- `core.ledger_claim_health` -/
def ledgerClaimHealth (db : Db) (project : Uuid) (asof : Instant) : List LedgerClaim :=
  (db.claims.rows.insertionSort fun a b => a.id ≤ b.id).filterMap fun c =>
    if c.projectId = project ∧ c.supersededByClaimId = none then
      c.catalog.map fun entry =>
        { id := c.id, claimType := c.claimType, catalogEntryId := entry.1, catalogVersion := entry.2,
          grade := c.grade, stale := db.isStaleClaim asof c, hasEvidence := db.hasEvidence c,
          conflictIds := (db.conflicts.rows.filter fun k =>
            k.claimId = c.id && k.resolvedAt.isNone).map ClaimConflict.id,
          excludedByRule := c.excludedByRule }
    else none

/-! ## Reviews and what is recorded of them -/

/-- The credential and the schema of a review, both joined. -/
def joined (db : Db) (a : Attestation) : Option (Credential × Schema) :=
  match db.credentials.lookup a.credentialId, db.schemas.lookup a.schemaId with
  | some credential, some schema => some (credential, schema)
  | _, _ => none

/-- The project of a review's case. -/
def projectOf (db : Db) (a : Attestation) : Option Uuid :=
  (db.cases.lookup a.caseId).map Case.projectId

end Db

/-- `valid` -/
def Attestation.isValid (a : Attestation) (evaluatedAt : Instant) (basis : Credential × Schema) :
    Bool :=
  (a.state = .signed || a.state = .active) && a.signature ≠ [] && a.signedAt ≤ evaluatedAt &&
    a.validUntil.all (evaluatedAt < ·) && basis.1.currentStatus = .valid &&
    basis.1.revokedAt.isNone && basis.1.expiresAt.all (evaluatedAt < ·) &&
    (basis.2.state = .active || basis.2.state = .approved)

structure LedgerAttestation where
  id : Uuid
  claimScope : List Uuid
  state : AttestationState
  limitations : Text
  valid : Bool
  deriving DecidableEq, Repr

/-- The reviews in `computeEvidenceLedger`. -/
def Db.ledgerAttestations (db : Db) (project : Uuid) (evaluatedAt : Instant)
    (claims : List LedgerClaim) : List LedgerAttestation :=
  (db.attestations.rows.insertionSort fun a b => a.id ≤ b.id).filterMap fun a =>
    (db.joined a).bind fun basis =>
      if db.projectOf a = some project ∧ a.state ≠ .draft ∧
          ∃ id ∈ a.claimScope, id ∈ claims.map LedgerClaim.id then
        some
          { id := a.id, claimScope := a.claimScope, state := a.state, limitations := a.limitations,
            valid := a.isValid evaluatedAt basis }
      else none

/-- The latest version of a fact. -/
def Db.latestFact (db : Db) (project : Uuid) (key : Text) : Option FactVersion :=
  ((db.facts.rows.filter fun f => f.projectId = project && f.factKey = key).insertionSort
    fun a b => b.version ≤ a.version).head?

/-! ## Items -/

structure ItemResult where
  status : LedgerItemStatus
  reasons : List Text
  attestationIds : List Uuid
  limitations : List Text
  deriving DecidableEq, Repr

def deriveLedgerItemStatus (claims : List LedgerClaim) (attestations : List LedgerAttestation)
    (explicitlyNotApplicable : Bool) : ItemResult :=
  let relevant := attestations.filter fun a => a.claimScope.any fun id => claims.any (·.id = id)
  let valid := relevant.filter LedgerAttestation.valid
  let base (status : LedgerItemStatus) (reason : Text) : ItemResult :=
    { status, reasons := [reason],
      attestationIds := ((relevant.filter (·.state ≠ .superseded)).map
        LedgerAttestation.id).insertionSort (· ≤ ·),
      limitations := valid.map LedgerAttestation.limitations }
  if (claims.any fun c => !c.conflictIds.isEmpty) || relevant.any (·.state = .disputed) then
    base .conflicting (units "UNRESOLVED_CONFLICT")
  else if claims.any LedgerClaim.stale || relevant.any (fun a => !a.valid && a.state ≠ .superseded) then
    base .needsReReview (units "EVIDENCE_OR_REVIEW_NO_LONGER_CURRENT")
  else if claims.any (fun c => c.grade = .rejected || c.excludedByRule) then
    base .rejected (units "REJECTED_OR_EXCLUDED_EVIDENCE")
  else if explicitlyNotApplicable then base .notApplicable (units "RECORDED_NOT_APPLICABLE")
  else if claims.isEmpty then base .missing (units "NO_CATALOG_CLAIM")
  else if claims.all (fun c => c.hasEvidence && valid.any fun a => c.id ∈ a.claimScope) then
    base .reviewed (units "CURRENT_SCOPED_REVIEW")
  else base .unreviewed (units "CURRENT_SCOPED_REVIEW_REQUIRED")

/-- `weakestGrade`, for the claims there are. -/
def weakestGrade : List Grade → Option Grade
  | [] => none
  | first :: rest =>
    some (rest.foldl (fun worst current => if current.rank < worst.rank then current else worst) first)

namespace Db

/-- The `catalog` of a project. -/
def catalog (db : Db) (project : Uuid) (evaluatedAt : Instant) : List ClaimType :=
  db.claimTypes.rows.filter fun d => d.effectiveFrom ≤ evaluatedAt &&
    !isReservedCatalogKey d.claimType &&
      ((db.claimTypes.rows.all fun latest => latest.claimType ≠ d.claimType ||
        evaluatedAt < latest.effectiveFrom || latest.catalogVersion ≤ d.catalogVersion) ||
      db.claims.rows.any fun c => c.projectId = project && c.catalog.any (·.1 = d.id) &&
        c.supersededByClaimId.isNone)

/-- The claims that a ledger is computed of. -/
def ledgerClaims (db : Db) (project : Uuid) (evaluatedAt : Instant) : List LedgerClaim :=
  (db.ledgerClaimHealth project evaluatedAt).filter fun c => !isReservedCatalogKey c.claimType

/-- The facts given by hand for what the catalog lists. -/
def manual (db : Db) (project : Uuid) (evaluatedAt : Instant) : List FactVersion :=
  ((db.catalog project evaluatedAt).map ClaimType.claimType).dedup.filterMap (db.latestFact project)

def deriveItem (db : Db) (project : Uuid) (evaluatedAt : Instant) (definition : ClaimType) :
    ItemResult :=
  let claims := db.ledgerClaims project evaluatedAt
  deriveLedgerItemStatus (claims.filter (·.catalogEntryId = definition.id))
    (db.ledgerAttestations project evaluatedAt claims)
    ((db.manual project evaluatedAt).any fun f =>
      f.factKey = definition.claimType && f.status = .notApplicable)

def ledgerItem (db : Db) (project : Uuid) (evaluatedAt : Instant) (definition : ClaimType) :
    LedgerItem :=
  let claims := db.ledgerClaims project evaluatedAt
  let attestations := db.ledgerAttestations project evaluatedAt claims
  let relevant := claims.filter (·.catalogEntryId = definition.id)
  let result := db.deriveItem project evaluatedAt definition
  { claimType := definition.claimType, catalogVersion := definition.catalogVersion,
    displayName := definition.displayName, status := result.status,
    grade := weakestGrade (relevant.map LedgerClaim.grade),
    reviewScope := ((relevant.filter fun c => attestations.any fun a => a.valid &&
      c.id ∈ a.claimScope).map LedgerClaim.claimType).dedup,
    claimIds := (relevant.map LedgerClaim.id).insertionSort (· ≤ ·),
    attestationIds := result.attestationIds, reasons := result.reasons,
    limitations := result.limitations }

/-- The latest effective policy of each stage. -/
def selectedPolicies (db : Db) (project : Uuid) (evaluatedAt : Instant) : List PolicySet :=
  match db.projects.lookup project with
  | none => []
  | some row =>
    [units "stage.exploration", units "stage.resource_defined", units "stage.feasibility",
      units "stage.permitted", units "stage.production"].filterMap fun gate =>
      ((db.policySets.rows.filter fun p => p.gateId = gate && p.state = .effective &&
        p.effectiveFrom ≤ evaluatedAt && p.supersededBy.isNone &&
        p.jurisdictionProfile = row.hostCountryIso3).insertionSort fun p q =>
          q.effectiveFrom < p.effectiveFrom ∨ q.effectiveFrom = p.effectiveFrom ∧
            (q.createdAt < p.createdAt ∨ q.createdAt = p.createdAt ∧ p.id ≤ q.id)).head?

/-- `computeEvidenceLedger`, with the stages it is given. -/
def computeEvidenceLedger (db : Db) (id project : Uuid) (evaluatedAt : Instant)
    (stages : List LedgerStage) (applicable : Option (List (Uuid × Text))) : Snapshot where
  id := id
  projectId := project
  evaluatedAt := evaluatedAt
  items := (db.catalog project evaluatedAt).map (db.ledgerItem project evaluatedAt)
  stages := stages
  policies := db.selectedPolicies project evaluatedAt
  manual := db.manual project evaluatedAt
  applicableStageRequirements := applicable

end Db

def LedgerItem.toPublic (item : LedgerItem) : PublicLedgerItem where
  claimType := item.claimType
  catalogVersion := item.catalogVersion
  displayName := item.displayName
  status := item.status
  grade := item.grade
  reviewScope := item.reviewScope
  reasons := item.reasons
  limitations := item.limitations

def publicLedgerProjection (snapshot : Snapshot) : LedgerProjection where
  snapshotId := snapshot.id
  items := snapshot.items.map LedgerItem.toPublic

end MpcRegistry.Ledger
