import MpcRegistry.Disclosure.Restrictions
import MpcRegistry.Library.Json
import MpcRegistry.Library.Keyset
import MpcRegistry.Lifecycle.Guards
import MpcRegistry.Registry.Tables

/-!
# The public lists

Source: apps/api/src/routes/public.ts:45-173, 400-607, api-contract/src/resources.ts:1321-1328,
1504-1509, packages/db/migrations/0046_current_function_definitions.sql:348-603,
0055_public_governance_centralization.sql:18-72, 0027_public_governance_disclosures.sql:74-95.
A `timestamptz` is its microseconds since 1970. A JavaScript date has milliseconds, and an ISO
text stands for them. Columns that no public list reads are left out.
-/
namespace MpcRegistry.Public
open Library Utf16
open Registry (RegistryType EntryStatus)
open Lifecycle (AtLifecycleState)
open Disclosure (RestrictionState)
open Ecma (decimalText)

abbrev Uuid := Nat
abbrev Instant := Int
abbrev Millis := Int

/-! ## Tables -/

/-- `core.registry_entries` -/
structure Entry where
  id : Uuid
  registryType : RegistryType
  subjectId : Uuid
  publicKey : Text

/-- `core.registry_entry_versions` -/
structure EntryVersion where
  id : Uuid
  entryId : Uuid
  version : Nat
  status : EntryStatus
  publicProjection : Option Json
  publishedAt : Option Instant
  revokedAt : Option Instant
  supersededById : Option Uuid
  createdAt : Instant

/-- `UNIQUE (entry_id, version)` -/
def EntryVersion.key (v : EntryVersion) : Uuid × Nat := (v.entryId, v.version)

inductive GovernanceSpace where
  | protocol | project
  deriving DecidableEq, Repr

inductive ProposalState where
  | draft | review | announced | voting | succeeded | defeated | noQuorum | timelocked | recorded
  | executionPending | executed | failed | disputed | cancelled
  deriving DecidableEq, Repr

inductive ExecutionMode where
  | recordOnly | onchainBounded | offchainRequired
  deriving DecidableEq, Repr

/-- `core.governance_proposals` -/
structure Proposal where
  id : Uuid
  space : GovernanceSpace
  proposalType : Text
  title : Text
  rationale : Text
  state : ProposalState
  quorumNumerator : Nat
  quorumDenominator : Nat
  thresholdNumerator : Nat
  thresholdDenominator : Nat
  votingOpensAt : Option Instant
  votingClosesAt : Option Instant
  createdAt : Instant
  conflictDisclosure : Option Text
  executionMode : Option ExecutionMode

inductive VoteChoice where
  | «for» | against | abstain
  deriving DecidableEq, Repr

/-- `core.governance_votes` -/
structure Vote where
  proposalId : Uuid
  voterSubjectId : Uuid
  choice : VoteChoice
  weight : Nat

/-- `UNIQUE (proposal_id, voter_subject_id)` -/
def Vote.key (v : Vote) : Uuid × Uuid := (v.proposalId, v.voterSubjectId)

/-- `core.governance_transitions` -/
structure ProposalTransition where
  id : Uuid
  proposalId : Uuid
  fromState : ProposalState
  toState : ProposalState
  reason : Text
  occurredAt : Instant
  tallySnapshot : Option Json

/-- `core.project_lifecycle_transitions` -/
structure LifecycleTransition where
  id : Uuid
  projectId : Uuid
  fromState : AtLifecycleState
  toState : AtLifecycleState
  occurredAt : Instant

/-- `core.disclosure_restrictions` -/
structure Restriction where
  id : Uuid
  projectId : Uuid
  state : RestrictionState
  effectiveAt : Option Instant
  releasedAt : Option Instant
  createdAt : Instant

/-- `core.attestation_disputes` -/
structure Dispute where
  id : Uuid
  attestationId : Uuid
  raisedAt : Instant
  resolvedAt : Option Instant

/-- `core.verification_attestations` -/
structure Attestation where
  id : Uuid
  caseId : Uuid

/-- `core.verification_cases` -/
structure Case where
  id : Uuid
  projectId : Uuid

structure Db where
  entries : Table Entry.id
  versions : Table EntryVersion.id
  proposals : Table Proposal.id
  votes : Table Vote.key
  proposalTransitions : Table ProposalTransition.id
  lifecycleTransitions : Table LifecycleTransition.id
  restrictions : Table Restriction.id
  disputes : Table Dispute.id
  attestations : Table Attestation.id
  cases : Table Case.id
  versionsUnique : (versions.rows.map EntryVersion.key).Nodup

/-! ## Cursors and the keyset -/

/-- A `timestamptz` as postgres.js reads it. -/
def toDate (time : Int) : Int := time / 1000

/-- What the base64url text of a cursor wraps. -/
structure Cursor where
  date : Int
  id : Nat
  deriving DecidableEq, Repr

def encodeCursor (time : Int) (id : Nat) : Cursor := ⟨toDate time, id⟩

/-- The date and the id as they are compared in SQL. -/
def decodeCursor (cursor : Cursor) : Int × Nat := (cursor.date * 1000, cursor.id)

/-- `limit`, as the contract lets it through. -/
abbrev Limit := { limit : Nat // 1 ≤ limit ∧ limit ≤ 100 }

/-- `time < after_at OR (time = after_at AND id < after_id)` -/
def isBehind (after key : Int × Nat) : Bool :=
  key.1 < after.1 || (key.1 = after.1 && key.2 < after.2)

section Query

variable {ρ : Type} (key : ρ → Int × Nat)

/-- `ORDER BY time DESC, id DESC` -/
def NotBefore (r s : ρ) : Prop :=
  (key s).1 < (key r).1 ∨ (key s).1 = (key r).1 ∧ (key s).2 ≤ (key r).2

instance : DecidableRel (NotBefore key) := fun _ _ => inferInstanceAs (Decidable (_ ∨ _))

/-- `LEAST(GREATEST(COALESCE(p_limit, 20), 1), 100)` -/
def rowLimit (limit : Nat) : Nat := min (max limit 1) 100

/-- What the three functions do with the rows they list. -/
def keysetQuery (rows : List ρ) (limit : Nat) (after : Option (Int × Nat)) : List ρ :=
  ((rows.filter fun r => after.all fun a => isBehind a (key r)).insertionSort
    (NotBefore key)).take (rowLimit limit)

/-- The page that the three routes make of it. -/
def listPage (rows : List ρ) (limit : Limit) (cursor : Option Cursor) : Page ρ Cursor :=
  Page.ofFetched (fun r => encodeCursor (key r).1 (key r).2) limit.val
    (keysetQuery key rows (limit.val + 1) (cursor.map decodeCursor))

end Query

/-! ## Registries -/

/-- What PostgreSQL decides about texts: `ILIKE`, and the text that `->>` gives of a value. -/
structure TextRules where
  ilike : Text → Text → Bool
  textOf : Json → Text

def btrim (text : Text) : Text :=
  ((text.dropWhile (· = 0x20)).reverse.dropWhile (· = 0x20)).reverse

/-- `replace(text, unit, '\' || unit)` -/
def escapeUnit (escaped : CodeUnit) (text : Text) : Text :=
  text.flatMap fun u => if u = escaped then [0x5c, u] else [u]

/-- `needle` -/
def needle (query : Option Text) : Option Text :=
  query.bind fun text =>
    if btrim text = [] then none
    else some (units "%" ++ escapeUnit 0x5f (escapeUnit 0x25 (escapeUnit 0x5c text)) ++ units "%")

/-- `projection ->> key` -/
def memberText (rules : TextRules) (projection : Json) (key : Text) : Option Text :=
  match projection with
  | .obj members =>
    match members.lookup key with
    | none | some .null => none
    | some value => some (rules.textOf value)
  | _ => none

/-- `jsonb_array_elements_text(projection -> 'mineral')`, of an array. -/
def mineralTexts (rules : TextRules) (projection : Json) : List Text :=
  match projection with
  | .obj members =>
    match members.lookup (units "mineral") with
    | some (.arr items) => items.map rules.textOf
    | _ => []
  | _ => []

/-- A row of `public_registry_list`. -/
structure RegistryRow where
  entryId : Uuid
  publicKey : Text
  entryVersionId : Uuid
  version : Nat
  status : EntryStatus
  publicProjection : Json
  publishedAt : Option Instant
  sortAt : Instant
  revokedAt : Option Instant
  supersededById : Option Uuid

def RegistryRow.key (row : RegistryRow) : Instant × Uuid := (row.sortAt, row.entryId)

/-- The latest version of an entry that is public. -/
def latestVersion (db : Db) (entry : Entry) : Option EntryVersion :=
  ((db.versions.rows.filter fun v => v.entryId = entry.id &&
    (v.status = .published || v.status = .revoked || v.status = .superseded) &&
    v.publicProjection.isSome).insertionSort fun v w => w.version ≤ v.version).head?

def registryRow (db : Db) (entry : Entry) : Option RegistryRow :=
  (latestVersion db entry).bind fun v => v.publicProjection.map fun projection =>
    { entryId := entry.id, publicKey := entry.publicKey, entryVersionId := v.id,
      version := v.version, status := v.status, publicProjection := projection,
      publishedAt := v.publishedAt, sortAt := v.publishedAt.getD v.createdAt,
      revokedAt := v.revokedAt, supersededById := v.supersededById }

def matchesNeedle (rules : TextRules) (row : RegistryRow) (pattern : Text) : Bool :=
  rules.ilike row.publicKey pattern ||
    (memberText rules row.publicProjection (units "projectName")).any (rules.ilike · pattern) ||
    (memberText rules row.publicProjection (units "projectKey")).any (rules.ilike · pattern) ||
    (memberText rules row.publicProjection (units "hostCountry")).any (rules.ilike · pattern) ||
    (mineralTexts rules row.publicProjection).any (rules.ilike · pattern)

/-- The rows that a registry lists. -/
def registryRows (rules : TextRules) (db : Db) (registryType : RegistryType) (query : Option Text)
    (status : Option EntryStatus) : List RegistryRow :=
  ((db.entries.rows.filter (·.registryType = registryType)).filterMap (registryRow db)).filter
    fun row => status.all (row.status = ·) && (needle query).all (matchesNeedle rules row)

/-- `core.public_registry_list` -/
def publicRegistryList (rules : TextRules) (db : Db) (registryType : RegistryType)
    (query : Option Text) (status : Option EntryStatus) (limit : Nat)
    (after : Option (Instant × Uuid)) : List RegistryRow :=
  keysetQuery RegistryRow.key (registryRows rules db registryType query status) limit after

structure RegistryItem where
  publicKey : Text
  entryVersionId : Uuid
  version : Text
  status : EntryStatus
  publishedAt : Option Millis
  revokedAt : Option Millis
  supersededBy : Option Uuid
  projection : Json

def toRegistryItem (row : RegistryRow) : RegistryItem where
  publicKey := row.publicKey
  entryVersionId := row.entryVersionId
  version := decimalText row.version
  status := row.status
  publishedAt := row.publishedAt.map toDate
  revokedAt := row.revokedAt.map toDate
  supersededBy := row.supersededById
  projection := row.publicProjection

/-- `GET /api/v1/public/registries/:registryType` -/
def registriesRoute (rules : TextRules) (db : Db) (registryType : RegistryType)
    (query : Option Text) (status : Option EntryStatus) (limit : Limit) (cursor : Option Cursor) :
    Page RegistryItem Cursor :=
  let rows := publicRegistryList rules db registryType query status (limit.val + 1)
    (cursor.map decodeCursor)
  (Page.ofFetched (fun row => encodeCursor row.sortAt row.entryId) limit.val rows).map toRegistryItem

/-! ## Proposals -/

/-- A row of `public_protocol_proposals`. -/
structure ProposalRow extends Proposal where
  weightFor : Nat
  weightAgainst : Nat
  weightAbstain : Nat
  voterCount : Nat

def ProposalRow.key (row : ProposalRow) : Instant × Uuid := (row.createdAt, row.id)

def proposalRow (db : Db) (p : Proposal) : ProposalRow :=
  let votes := db.votes.rows.filter (·.proposalId = p.id)
  let weight (choice : VoteChoice) : Nat := ((votes.filter (·.choice = choice)).map Vote.weight).sum
  { p with
    weightFor := weight .for
    weightAgainst := weight .against
    weightAbstain := weight .abstain
    voterCount := votes.length }

/-- `space = 'protocol' AND state <> 'draft'` -/
def isPublicProposal (p : Proposal) : Bool := p.space = .protocol && p.state ≠ .draft

def proposalRows (db : Db) : List ProposalRow :=
  (db.proposals.rows.filter isPublicProposal).map (proposalRow db)

/-- `core.public_protocol_proposals` -/
def publicProtocolProposals (db : Db) (limit : Nat) (after : Option (Instant × Uuid)) :
    List ProposalRow :=
  keysetQuery ProposalRow.key (proposalRows db) limit after

structure Fraction where
  numerator : Nat
  denominator : Nat

structure Tally where
  «for» : Text
  against : Text
  abstain : Text
  voterCount : Nat

structure ProposalItem where
  id : Uuid
  proposalType : Text
  title : Text
  rationale : Text
  state : ProposalState
  quorum : Fraction
  threshold : Fraction
  votingOpensAt : Option Millis
  votingClosesAt : Option Millis
  createdAt : Millis
  tally : Tally
  conflictDisclosure : Option Text
  executionMode : Option ExecutionMode

def tallyOf (row : ProposalRow) : Tally where
  «for» := decimalText row.weightFor
  against := decimalText row.weightAgainst
  abstain := decimalText row.weightAbstain
  voterCount := row.voterCount

def toProposal (row : ProposalRow) : ProposalItem where
  id := row.id
  proposalType := row.proposalType
  title := row.title
  rationale := row.rationale
  state := row.state
  quorum := ⟨row.quorumNumerator, row.quorumDenominator⟩
  threshold := ⟨row.thresholdNumerator, row.thresholdDenominator⟩
  votingOpensAt := row.votingOpensAt.map toDate
  votingClosesAt := row.votingClosesAt.map toDate
  createdAt := toDate row.createdAt
  tally := tallyOf row
  conflictDisclosure := row.conflictDisclosure
  executionMode := row.executionMode

/-- `GET /api/v1/public/governance/proposals` -/
def proposalsRoute (db : Db) (limit : Limit) (cursor : Option Cursor) : Page ProposalItem Cursor :=
  let rows := publicProtocolProposals db (limit.val + 1) (cursor.map decodeCursor)
  (Page.ofFetched (fun row => encodeCursor row.createdAt row.id) limit.val rows).map toProposal

structure TransitionItem where
  fromState : ProposalState
  toState : ProposalState
  reason : Text
  occurredAt : Millis
  tallySnapshot : Option Json

/-- `core.public_protocol_proposal_transitions` -/
def publicProtocolProposalTransitions (db : Db) (proposalId : Uuid) : List ProposalTransition :=
  (db.proposalTransitions.rows.filter fun t => t.proposalId = proposalId &&
    (db.proposals.lookup t.proposalId).any isPublicProposal).insertionSort
      fun t u => t.occurredAt ≤ u.occurredAt

structure ProposalDetail where
  proposal : ProposalItem
  transitions : List TransitionItem

/-- `GET /api/v1/public/governance/proposals/:proposalId`; none is a 404. -/
def proposalRoute (db : Db) (proposalId : Uuid) : Option ProposalDetail :=
  let rows := (publicProtocolProposals db 100 none).filter (·.id = proposalId)
  rows.head?.map fun row =>
    { proposal := toProposal row
      transitions := (publicProtocolProposalTransitions db proposalId).map fun t =>
        ⟨t.fromState, t.toState, t.reason, toDate t.occurredAt, t.tallySnapshot⟩ }

/-! ## Disclosures -/

inductive DisclosureKind where
  | revocation | sourceCorrection | suspension | pause | dispute
  deriving DecidableEq, Repr

/-- A row of `public_disclosure_events`. -/
structure EventRow where
  eventId : Uuid
  eventKind : DisclosureKind
  occurredAt : Instant
  registryType : RegistryType
  publicKey : Text
  entryVersionId : Option Uuid
  entryVersion : Option Nat
  publicProjection : Option Json
  supersededById : Option Uuid
  fromState : Option AtLifecycleState
  toState : Option AtLifecycleState
  resolvedAt : Option Instant

def EventRow.key (row : EventRow) : Instant × Uuid := (row.occurredAt, row.eventId)

/-- `public_projects`: a project and the key of its public entry. -/
def publicProjects (db : Db) : List (Uuid × Text) :=
  ((db.entries.rows.filter fun e => e.registryType = .project &&
    db.versions.rows.any fun v => v.entryId = e.id && v.publicProjection.isSome).map
      fun e => (e.subjectId, e.publicKey)).dedup

/-- An event of a project, once for each public entry of the project. -/
def projectEvents (db : Db) (projectId eventId : Uuid) (kind : DisclosureKind) (time : Instant)
    (states : Option (AtLifecycleState × AtLifecycleState)) (resolvedAt : Option Instant) :
    List EventRow :=
  ((publicProjects db).filter (·.1 = projectId)).map fun project =>
    { eventId, eventKind := kind, occurredAt := time, registryType := .project,
      publicKey := project.2, entryVersionId := none, entryVersion := none,
      publicProjection := none, supersededById := none, fromState := states.map Prod.fst,
      toState := states.map Prod.snd, resolvedAt }

/-- Corrections and revocations. -/
def versionEvents (db : Db) : List EventRow :=
  (db.versions.rows.filter fun v => (v.status = .revoked || v.status = .superseded) &&
    v.publicProjection.isSome).filterMap fun v => (db.entries.lookup v.entryId).map fun e =>
      { eventId := v.id,
        eventKind := if v.status = .revoked then .revocation else .sourceCorrection,
        occurredAt := (v.revokedAt.or ((v.supersededById.bind db.versions.lookup).bind
          EntryVersion.publishedAt)).getD (v.publishedAt.getD v.createdAt),
        registryType := e.registryType, publicKey := e.publicKey, entryVersionId := some v.id,
        entryVersion := some v.version, publicProjection := v.publicProjection,
        supersededById := v.supersededById, fromState := none, toState := none, resolvedAt := none }

def suspensionEvents (db : Db) : List EventRow :=
  (db.lifecycleTransitions.rows.filter fun t =>
    t.fromState = .suspended || t.toState = .suspended).flatMap fun t =>
      projectEvents db t.projectId t.id .suspension t.occurredAt (some (t.fromState, t.toState)) none

def pauseEvents (db : Db) : List EventRow :=
  (db.restrictions.rows.filter fun r => r.state = .active || r.state = .released).flatMap fun r =>
    projectEvents db r.projectId r.id .pause (r.effectiveAt.getD r.createdAt) none r.releasedAt

def disputeEvents (db : Db) : List EventRow :=
  db.disputes.rows.flatMap fun d =>
    match (db.attestations.lookup d.attestationId).bind fun a => db.cases.lookup a.caseId with
    | none => []
    | some c => projectEvents db c.projectId d.id .dispute d.raisedAt none d.resolvedAt

def eventRows (db : Db) : List EventRow :=
  versionEvents db ++ suspensionEvents db ++ pauseEvents db ++ disputeEvents db

/-- `core.public_disclosure_events` -/
def publicDisclosureEvents (db : Db) (limit : Nat) (after : Option (Instant × Uuid)) :
    List EventRow :=
  keysetQuery EventRow.key (eventRows db) limit after

structure RegistryVersion where
  entryVersionId : Uuid
  version : Text
  supersededBy : Option Uuid
  projection : Json

structure DisclosureItem where
  eventId : Uuid
  eventKind : DisclosureKind
  occurredAt : Millis
  registryType : RegistryType
  publicKey : Text
  registryVersion : Option RegistryVersion
  lifecycle : Option (AtLifecycleState × AtLifecycleState)
  resolvedAt : Option Millis

def toDisclosure (row : EventRow) : DisclosureItem where
  eventId := row.eventId
  eventKind := row.eventKind
  occurredAt := toDate row.occurredAt
  registryType := row.registryType
  publicKey := row.publicKey
  registryVersion := row.entryVersionId.map fun id =>
    ⟨id, decimalText (row.entryVersion.getD 0), row.supersededById,
      row.publicProjection.getD (.obj [])⟩
  lifecycle :=
    match row.fromState, row.toState with
    | some source, some target => some (source, target)
    | _, _ => none
  resolvedAt := row.resolvedAt.map toDate

/-- `GET /api/v1/public/disclosures` -/
def disclosuresRoute (db : Db) (limit : Limit) (cursor : Option Cursor) :
    Page DisclosureItem Cursor :=
  let rows := publicDisclosureEvents db (limit.val + 1) (cursor.map decodeCursor)
  (Page.ofFetched (fun row => encodeCursor row.occurredAt row.eventId) limit.val rows).map
    toDisclosure

end MpcRegistry.Public
