import MpcRegistry.Ledger.Evaluator

/-!
# What the public is warned of

Source: `core.public_evidence_ledger_current`,
packages/db/migrations/0098_ledger_signal_item_scope.sql:7-222. One definition stands for each
`EXISTS` of the `CASE`; a comparison with NULL is none. The order of the warnings is left out.
-/
namespace MpcRegistry.Ledger
open Library Utf16 Documents
open Lifecycle (ConfirmationStatus)

/-- What is frozen, and the version and the time that it is looked at. -/
structure Viewed where
  version : Uuid
  snapshot : Snapshot
  evaluatedAt : Instant

/-- `state NOT IN ('signed','active')` and what else makes a review one that counts no more. -/
def Attestation.isLapsed (a : Attestation) (evaluatedAt : Instant) (basis : Credential × Schema) :
    Bool :=
  (a.state ≠ .signed && a.state ≠ .active) || a.validUntil.any (· ≤ evaluatedAt) ||
    basis.1.currentStatus ≠ .valid || basis.1.revokedAt.isSome ||
    basis.1.expiresAt.any (· ≤ evaluatedAt) ||
    (basis.2.state ≠ .active && basis.2.state ≠ .approved) || a.signature = [] ||
    evaluatedAt < a.signedAt

namespace Db

variable (db : Db) (viewed : Viewed) (item : LedgerItem)

/-- `manual_applicability` -/
def manualApplicability : Option ConfirmationStatus :=
  if isReservedCatalogKey item.claimType then none
  else (db.latestFact viewed.snapshot.projectId item.claimType).map FactVersion.status

/-- `exclusion.current` -/
def excludedNow : Bool :=
  if isReservedCatalogKey item.claimType then item.status = .notApplicable
  else db.manualApplicability viewed item = some .notApplicable

/-- `item -> 'claimIds'`: the frozen ones and what is current under the same name. -/
def scopedClaimIds : List Uuid :=
  item.claimIds ++ (db.claims.rows.filter fun c => c.projectId = viewed.snapshot.projectId &&
    c.claimType = item.claimType && c.catalog.any (·.2 = item.catalogVersion) &&
    c.supersededByClaimId.isNone).map Claim.id

/-- `item -> 'attestationIds'` -/
def scopedAttestationIds : List Uuid :=
  item.attestationIds ++ (db.attestations.rows.filter fun a =>
    db.projectOf a = some viewed.snapshot.projectId && a.state ≠ .draft && a.state ≠ .superseded &&
    a.claimScope.any (· ∈ db.scopedClaimIds viewed item)).map Attestation.id

def scopedClaims : List Claim :=
  db.claims.rows.filter fun c => c.id ∈ db.scopedClaimIds viewed item

def scopedHealth : List LedgerClaim :=
  (db.ledgerClaimHealth viewed.snapshot.projectId viewed.evaluatedAt).filter fun h =>
    h.id ∈ db.scopedClaimIds viewed item

def scopedAttestations : List Attestation :=
  db.attestations.rows.filter fun a => a.id ∈ db.scopedAttestationIds viewed item

def isConflicting : Bool :=
  (db.conflicts.rows.any fun k => k.claimId ∈ db.scopedClaimIds viewed item && k.resolvedAt.isNone) ||
    (db.scopedAttestations viewed item).any (·.state = .disputed)

def isInvalidated : Bool :=
  (db.scopedHealth viewed item).any LedgerClaim.stale ||
    (db.scopedClaims viewed item).any (·.supersededByClaimId.isSome) ||
    (db.signals.rows.any fun s => s.targetType = .registryEntryVersion && s.targetId = viewed.version &&
      s.isOpen && s.originAttestationId.all (· ∈ db.scopedAttestationIds viewed item)) ||
    (db.scopedAttestations viewed item).any fun a =>
      (db.joined a).any (a.isLapsed viewed.evaluatedAt)

def isRejected : Bool :=
  (db.scopedClaims viewed item).any fun c => c.grade = .rejected || c.excludedByRule

/-- A review of the project that covers the claim and counts. -/
def hasCurrentReview (claimId : Uuid) : Bool :=
  db.attestations.rows.any fun a => (db.joined a).any fun basis =>
    db.projectOf a = some viewed.snapshot.projectId && claimId ∈ a.claimScope &&
      a.isValid viewed.evaluatedAt basis

def lacksEvidence : Bool :=
  ((db.scopedHealth viewed item).any fun h => !h.hasEvidence && !db.excludedNow viewed item) ||
    (db.ledgerClaimHealth viewed.snapshot.projectId viewed.evaluatedAt).any fun h =>
      h.claimType = item.claimType && h.catalogVersion = item.catalogVersion &&
        !db.excludedNow viewed item && !db.hasCurrentReview viewed h.id && h.id ∉ item.claimIds

/-- Other policies are in force than were frozen. -/
def policiesChanged : Bool :=
  ((db.selectedPolicies viewed.snapshot.projectId viewed.evaluatedAt).map PolicySet.id).insertionSort
      (· ≤ ·) ≠
    (viewed.snapshot.policies.map PolicySet.id).insertionSort (· ≤ ·)

def hasAged : Bool :=
  viewed.snapshot.stages.any fun stage => (db.policySets.lookup stage.policySetId).any fun policy =>
    policy.requirements.any fun requirement =>
      item.claimType ∈ requirement.requiredClaimTypes && !db.excludedNow viewed item &&
        (db.scopedClaims viewed item).any fun c => c.projectId = viewed.snapshot.projectId &&
          c.asOf.any fun asOf => requirement.freshnessThresholdDays.any fun threshold =>
            (threshold : Int) < dayOf viewed.evaluatedAt - asOf

/-- The requirements of approved stages that ask for the item. An older snapshot does not
say which of them apply. -/
def approvedRequirements : List Requirement :=
  (viewed.snapshot.stages.filter (·.status = .ok)).flatMap fun stage =>
    (viewed.snapshot.policies.filter (·.id = stage.policySetId)).flatMap fun policy =>
      policy.requirements.filter fun requirement =>
        item.claimType ∈ requirement.requiredClaimTypes &&
          viewed.snapshot.applicableStageRequirements.all fun applicable =>
            (policy.id, requirement.requirementId) ∈ applicable

def isBelowGrade : Bool :=
  (approvedRequirements viewed item).any fun requirement =>
    !db.excludedNow viewed item && db.claims.rows.any fun c =>
      c.projectId = viewed.snapshot.projectId && c.claimType = item.claimType &&
        c.catalog.any (·.2 = item.catalogVersion) && c.supersededByClaimId.isNone &&
        requirement.minimumGrade.any (c.grade.rank < ·.rank)

def isNewlyExcluded : Bool :=
  !(approvedRequirements viewed item).isEmpty && item.status ≠ .notApplicable &&
    db.manualApplicability viewed item = some .notApplicable &&
    !viewed.snapshot.manual.any fun f => f.factKey = item.claimType && f.status = .notApplicable

def exclusionWithdrawn : Bool :=
  item.status = .notApplicable && (db.manualApplicability viewed item).any (· ≠ .notApplicable)

/-- The `CASE`. -/
def warningStatus : Option LedgerItemStatus :=
  if db.isConflicting viewed item then some .conflicting
  else if db.isInvalidated viewed item then some .needsReReview
  else if db.isRejected viewed item then some .rejected
  else if db.lacksEvidence viewed item || db.policiesChanged viewed || db.hasAged viewed item ||
      db.isBelowGrade viewed item || db.isNewlyExcluded viewed item ||
      db.exclusionWithdrawn viewed item then some .needsReReview
  else none

end Db

structure Warning where
  claimType : Text
  catalogVersion : Nat
  status : LedgerItemStatus
  deriving DecidableEq, Repr

namespace Db

/-- `published` and `frozen` -/
def frozen (db : Db) (version : Uuid) : Option (LedgerProjection × Snapshot) :=
  (db.versions.lookup version).bind fun v =>
    if v.status ≠ .draft ∧ v.publishedAt.isSome then
      (db.entries.lookup v.entryId).bind fun entry =>
        if entry.registryType = .project then
          v.evidenceLedger.bind fun projection =>
            (db.snapshots.lookup projection.snapshotId).bind fun snapshot =>
              if snapshot.projectId = entry.subjectId then some (projection, snapshot) else none
        else none
    else none

/-- `core.public_evidence_ledger_current` -/
def publicEvidenceLedgerCurrent (db : Db) (version : Uuid) (evaluatedAt : Instant) :
    Option (List Warning) :=
  (db.frozen version).map fun (projection, snapshot) =>
    (snapshot.items.filter fun item => projection.items.any fun approved =>
      approved.claimType = item.claimType && approved.catalogVersion = item.catalogVersion).filterMap
        fun item => (db.warningStatus ⟨version, snapshot, evaluatedAt⟩ item).map fun status =>
          { claimType := item.claimType, catalogVersion := item.catalogVersion, status }

end Db

end MpcRegistry.Ledger
