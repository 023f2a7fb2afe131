import MpcRegistry.Ledger.PublicWarnings
import MpcRegistry.Library.Transition

/-!
# What a snapshot keeps

Source: packages/db/migrations/0003_guards.sql:34-80,
0063_attestation_revocation_and_claim_versions.sql:66-116, 0083_catalog_claim_inputs.sql:16-52
and apps/api/src/services/registry-publication.ts:27-53. A snapshot shows a claim as reviewed when a review covers it. The columns that say so are
guarded, and nothing is deleted, so it stays covered by that review whatever becomes of it.
-/
namespace MpcRegistry.Ledger
open Library Documents
open Policy (Grade)

/-! ## Writes -/

inductive Write where
  | addClaimType (row : ClaimType)
  | addClaim (row : Claim)
  | changeClaim (id : Uuid) (grade : Grade) (staleSince : Option Instant) (excludedByRule : Bool)
      (supersededByClaimId : Option Uuid)
  | addCase (row : Case)
  | addCredential (row : Credential)
  | changeCredential (id : Uuid) (currentStatus : CredentialStatus)
      (revokedAt expiresAt : Option Instant)
  | addSchema (row : Schema)
  | changeSchema (id : Uuid) (state : SchemaState)
  | draft (row : Attestation)
  | sign (id : Uuid) (signature : Text) (signedAt : Instant)
  | changeState (id : Uuid) (state : AttestationState)
  | takeSnapshot (id project : Uuid) (evaluatedAt : Instant) (stages : List LedgerStage)
      (applicable : Option (List (Uuid × Text)))
  | addEntry (row : Entry)
  | publishVersion (id entryId : Uuid) (publishedAt : Instant) (snapshotId : Uuid)
  | changeVersion (id : Uuid) (status : VersionStatus)
  | other (surroundings : Surroundings)

/-- What `protect_claim_content` and `guard_catalog_claim_content` let change. -/
def Claim.change (grade : Grade) (staleSince : Option Instant) (excludedByRule : Bool)
    (supersededByClaimId : Option Uuid) (c : Claim) : Claim :=
  { c with grade, staleSince, excludedByRule,
           supersededByClaimId := c.supersededByClaimId.or supersededByClaimId }

theorem Claim.id_change (grade : Grade) (staleSince : Option Instant) (excludedByRule : Bool)
    (supersededByClaimId : Option Uuid) (c : Claim) :
    (c.change grade staleSince excludedByRule supersededByClaimId).id = c.id := rfl

/-- The rows of one write; one that a guard or a key refuses changes nothing. Publication
checks the projection against the stored snapshot (`assertEvidenceLedgerProjection`). -/
def Db.write (db : Db) : Write → Db
  | .addClaimType row =>
    if db.claimTypes.rows.any fun d => d.claimType = row.claimType &&
        d.catalogVersion = row.catalogVersion then db
    else { db with claimTypes := db.claimTypes.insertIfAbsent row }
  | .addClaim row =>
    if row.catalog.all fun entry => (db.claimTypes.lookup entry.1).any fun d =>
        d.claimType = row.claimType && d.catalogVersion = entry.2 then
      { db with claims := db.claims.insertIfAbsent row }
    else db
  | .changeClaim id grade staleSince excludedByRule supersededByClaimId =>
    { db with
      claims := db.claims.update (·.id = id)
        (Claim.change grade staleSince excludedByRule supersededByClaimId)
        (Claim.id_change grade staleSince excludedByRule supersededByClaimId) }
  | .addCase row => { db with cases := db.cases.insertIfAbsent row }
  | .addCredential row => { db with credentials := db.credentials.insertIfAbsent row }
  | .changeCredential id currentStatus revokedAt expiresAt =>
    { db with
      credentials := db.credentials.update (·.id = id)
        (fun c => { c with currentStatus, revokedAt, expiresAt }) fun _ => rfl }
  | .addSchema row => { db with schemas := db.schemas.insertIfAbsent row }
  | .changeSchema id state =>
    { db with schemas := db.schemas.update (·.id = id) (fun s => { s with state }) fun _ => rfl }
  | .draft row =>
    if (db.joined row).isSome && (db.projectOf row).isSome then
      { db with
        attestations := db.attestations.insertIfAbsent { row with signature := [], state := .draft } }
    else db
  | .sign id signature signedAt =>
    { db with
      attestations := db.attestations.update (fun a => a.id = id && a.state = .draft)
        (fun a => { a with signature, signedAt, state := .signed }) fun _ => rfl }
  | .changeState id state =>
    { db with
      attestations := db.attestations.update (fun a => a.id = id && a.state ≠ .draft && state ≠ .draft)
        (fun a => { a with state }) fun _ => rfl }
  | .takeSnapshot id project evaluatedAt stages applicable =>
    if (db.projects.lookup project).isSome then
      { db with
        snapshots := db.snapshots.insertIfAbsent
          (db.computeEvidenceLedger id project evaluatedAt stages applicable) }
    else db
  | .addEntry row => { db with entries := db.entries.insertIfAbsent row }
  | .publishVersion id entryId publishedAt snapshotId =>
    match db.snapshots.lookup snapshotId with
    | none => db
    | some snapshot =>
      { db with
        versions := db.versions.insertIfAbsent
          { id, entryId, status := .published, publishedAt := some publishedAt,
            evidenceLedger := some (publicLedgerProjection snapshot) } }
  | .changeVersion id status =>
    { db with versions := db.versions.update (·.id = id) (fun v => { v with status }) fun _ => rfl }
  | .other surroundings => { db with toSurroundings := surroundings }

def history : System Db Write := .ofExec (· = Db.empty) Db.write

/-! ## The cascade -/

/-- A review over one of the claims. -/
def Covers (claims : List LedgerClaim) (a : LedgerAttestation) : Prop :=
  ∃ id ∈ a.claimScope, ∃ c ∈ claims, c.id = id

/-- What each answer of `deriveLedgerItemStatus` says of the claims and reviews. -/
inductive Derived (claims : List LedgerClaim) (attestations : List LedgerAttestation) (na : Bool) :
    LedgerItemStatus → Prop where
  | conflict {c : LedgerClaim} (mem : c ∈ claims) (conflict : c.conflictIds ≠ []) :
      Derived claims attestations na .conflicting
  | disputed {a : LedgerAttestation} (mem : a ∈ attestations) (covers : Covers claims a)
      (state : a.state = .disputed) : Derived claims attestations na .conflicting
  | stale {c : LedgerClaim} (mem : c ∈ claims) (stale : c.stale = true) :
      Derived claims attestations na .needsReReview
  | lapsed {a : LedgerAttestation} (mem : a ∈ attestations) (covers : Covers claims a)
      (invalid : a.valid = false) (state : a.state ≠ .superseded) :
      Derived claims attestations na .needsReReview
  | rejected {c : LedgerClaim} (mem : c ∈ claims)
      (rejected : c.grade = .rejected ∨ c.excludedByRule = true) :
      Derived claims attestations na .rejected
  | notApplicable (holds : na = true) : Derived claims attestations na .notApplicable
  | missing (none' : claims = []) : Derived claims attestations na .missing
  | reviewed (some' : claims ≠ []) (covered : ∀ c ∈ claims, c.hasEvidence = true ∧
      ∃ a ∈ attestations, a.valid = true ∧ c.id ∈ a.claimScope) :
      Derived claims attestations na .reviewed
  | unreviewed (applicable : na = false) {c : LedgerClaim} (mem : c ∈ claims)
      (uncovered : c.hasEvidence = true → ∀ a ∈ attestations, a.valid = true → c.id ∉ a.claimScope) :
      Derived claims attestations na .unreviewed

section Cascade

variable {claims : List LedgerClaim} {attestations : List LedgerAttestation} {na : Bool}

theorem mem_relevant {a : LedgerAttestation} :
    (a ∈ attestations.filter fun a => a.claimScope.any fun id => claims.any (·.id = id)) ↔
      a ∈ attestations ∧ Covers claims a := by
  simp [Covers]

theorem derived (claims : List LedgerClaim) (attestations : List LedgerAttestation) (na : Bool) :
    Derived claims attestations na (deriveLedgerItemStatus claims attestations na).status := by
  unfold deriveLedgerItemStatus
  dsimp only
  split
  next h =>
    rcases Bool.or_eq_true_iff.mp h with h | h
    · obtain ⟨c, hc, hconflict⟩ := List.any_eq_true.mp h
      exact .conflict hc (by simpa using hconflict)
    · obtain ⟨a, ha, hstate⟩ := List.any_eq_true.mp h
      obtain ⟨ha, hcovers⟩ := mem_relevant.mp ha
      exact .disputed ha hcovers (of_decide_eq_true hstate)
  split
  next h =>
    rcases Bool.or_eq_true_iff.mp h with h | h
    · obtain ⟨c, hc, hstale⟩ := List.any_eq_true.mp h
      exact .stale hc hstale
    · obtain ⟨a, ha, hinvalid⟩ := List.any_eq_true.mp h
      obtain ⟨ha, hcovers⟩ := mem_relevant.mp ha
      simp only [Bool.and_eq_true, Bool.not_eq_true', decide_eq_true_eq] at hinvalid
      exact .lapsed ha hcovers hinvalid.1 hinvalid.2
  split
  next h =>
    obtain ⟨c, hc, hrejected⟩ := List.any_eq_true.mp h
    exact .rejected hc (by simpa using hrejected)
  split
  next h => exact .notApplicable h
  next hna =>
    split
    next h => exact .missing (List.isEmpty_iff.mp h)
    next hsome =>
      split
      next h =>
        refine .reviewed (fun hnone => hsome (List.isEmpty_iff.mpr hnone)) fun c hc => ?_
        have hcovered := List.all_eq_true.mp h c hc
        simp only [Bool.and_eq_true, List.any_eq_true, decide_eq_true_eq] at hcovered
        obtain ⟨hevidence, a, ha, hscope⟩ := hcovered
        obtain ⟨ha, hvalid⟩ := List.mem_filter.mp ha
        exact ⟨hevidence, a, (mem_relevant.mp ha).1, hvalid, hscope⟩
      next h =>
        simp only [List.all_eq_true, not_forall] at h
        obtain ⟨c, hc, hnot⟩ := h
        refine .unreviewed (by simpa using hna) hc fun hevidence a ha hvalid hscope => hnot ?_
        simp only [hevidence, Bool.true_and, List.any_eq_true, decide_eq_true_eq]
        refine ⟨a, List.mem_filter.mpr ⟨mem_relevant.mpr ⟨ha, ?_⟩, hvalid⟩, hscope⟩
        exact ⟨c.id, hscope, c, hc, rfl⟩

theorem mem_attestationIds {id : Uuid} :
    id ∈ (deriveLedgerItemStatus claims attestations na).attestationIds ↔
      ∃ a ∈ attestations, Covers claims a ∧ a.state ≠ .superseded ∧ a.id = id := by
  have hbase : (deriveLedgerItemStatus claims attestations na).attestationIds =
      (((attestations.filter fun a => a.claimScope.any fun id => claims.any (·.id = id)).filter
        (·.state ≠ .superseded)).map LedgerAttestation.id).insertionSort (· ≤ ·) := by
    unfold deriveLedgerItemStatus
    dsimp only
    repeat' split
    all_goals rfl
  rw [hbase, List.mem_insertionSort, List.mem_map]
  constructor
  · intro ⟨a, ha, hid⟩
    obtain ⟨ha, hstate⟩ := List.mem_filter.mp ha
    obtain ⟨ha, hcovers⟩ := mem_relevant.mp ha
    exact ⟨a, ha, hcovers, by simpa using hstate, hid⟩
  · intro ⟨a, ha, hcovers, hstate, hid⟩
    exact ⟨a, List.mem_filter.mpr ⟨mem_relevant.mpr ⟨ha, hcovers⟩, by simpa using hstate⟩, hid⟩

end Cascade

/-! ## What both read -/

variable {db db' : Db} {project : Uuid} {t : Instant}

/-- The two forms of one condition. -/
theorem isLapsed_iff (a : Attestation) (basis : Credential × Schema) :
    a.isLapsed t basis = true ↔ a.isValid t basis = false := by
  have hany : ∀ o : Option Instant, o.any (· ≤ t) = !o.all (t < ·) := by
    intro o
    cases o with
    | none => rfl
    | some u => simp only [Option.any_some, Option.all_some, ← decide_not, Nat.not_lt]
  unfold Attestation.isLapsed Attestation.isValid
  rw [hany, hany, ← Bool.not_eq_true]
  simp only [Bool.or_eq_true, Bool.and_eq_true, decide_eq_true_eq, Bool.not_eq_true',
    Option.isSome_iff_ne_none, Option.isNone_iff_eq_none, ← Bool.not_eq_true]
  rw [← Nat.not_le]
  tauto

theorem mem_ledgerClaimHealth {h : LedgerClaim} :
    h ∈ db.ledgerClaimHealth project t ↔ ∃ c ∈ db.claims, ∃ entry, c.projectId = project ∧
      c.supersededByClaimId = none ∧ c.catalog = some entry ∧
      { id := c.id, claimType := c.claimType, catalogEntryId := entry.1, catalogVersion := entry.2,
        grade := c.grade, stale := db.isStaleClaim t c, hasEvidence := db.hasEvidence c,
        conflictIds := (db.conflicts.rows.filter fun k =>
          k.claimId = c.id && k.resolvedAt.isNone).map ClaimConflict.id,
        excludedByRule := c.excludedByRule } = h := by
  unfold Db.ledgerClaimHealth
  rw [List.mem_filterMap]
  constructor
  · intro ⟨c, hc, hrow⟩
    rw [List.mem_insertionSort] at hc
    split at hrow
    next hcurrent =>
      obtain ⟨entry, hentry, rfl⟩ := Option.map_eq_some_iff.mp hrow
      exact ⟨c, hc, entry, hcurrent.1, hcurrent.2, hentry, rfl⟩
    next => cases hrow
  · intro ⟨c, hc, entry, hproject, hcurrent, hentry, hrow⟩
    refine ⟨c, (List.mem_insertionSort _).mpr hc, ?_⟩
    rw [if_pos ⟨hproject, hcurrent⟩, hentry, ← hrow]
    rfl

theorem mem_ledgerAttestations {claims : List LedgerClaim} {l : LedgerAttestation} :
    l ∈ db.ledgerAttestations project t claims ↔ ∃ a ∈ db.attestations, ∃ basis,
      db.joined a = some basis ∧ db.projectOf a = some project ∧ a.state ≠ .draft ∧
      Covers claims l ∧
      { id := a.id, claimScope := a.claimScope, state := a.state, limitations := a.limitations,
        valid := a.isValid t basis } = l := by
  unfold Db.ledgerAttestations
  rw [List.mem_filterMap]
  constructor
  · intro ⟨a, ha, hrow⟩
    rw [List.mem_insertionSort] at ha
    obtain ⟨basis, hbasis, hrow⟩ := Option.bind_eq_some_iff.mp hrow
    split at hrow
    next hread =>
      obtain ⟨hproject, hstate, id, hid, hmem⟩ := hread
      obtain ⟨c, hc, hcid⟩ := List.mem_map.mp hmem
      cases hrow
      exact ⟨a, ha, basis, hbasis, hproject, hstate, ⟨id, hid, c, hc, hcid⟩, rfl⟩
    next => cases hrow
  · intro ⟨a, ha, basis, hbasis, hproject, hstate, ⟨id, hid, c, hc, hcid⟩, hrow⟩
    subst hrow
    refine ⟨a, (List.mem_insertionSort _).mpr ha, ?_⟩
    rw [hbasis, Option.bind_some, if_pos ⟨hproject, hstate, id, hid, List.mem_map.mpr ⟨c, hc, hcid⟩⟩]

/-! ## What a snapshot keeps -/

/-- Each claim of a reviewed item is one of the project's under its name, and was covered by
a review of the project. -/
structure Reviewed (db : Db) (project : Uuid) (item : LedgerItem) : Prop where
  some' : item.claimIds ≠ []
  claim : ∀ id ∈ item.claimIds, ∃ c ∈ db.claims, c.id = id ∧ c.projectId = project ∧
    c.claimType = item.claimType ∧ ∃ entry, c.catalog = some (entry, item.catalogVersion)
  covered : ∀ id ∈ item.claimIds, ∃ a ∈ db.attestations, a.id ∈ item.attestationIds ∧
    id ∈ a.claimScope ∧ db.projectOf a = some project

structure Invariant (db : Db) : Prop where
  types : ∀ d ∈ db.claimTypes, ∀ d' ∈ db.claimTypes, d.claimType = d'.claimType →
    d.catalogVersion = d'.catalogVersion → d = d'
  defined : ∀ c ∈ db.claims, ∀ entry ∈ c.catalog, ∃ d ∈ db.claimTypes, d.id = entry.1 ∧
    d.claimType = c.claimType ∧ d.catalogVersion = entry.2
  joined : ∀ a ∈ db.attestations, (db.joined a).isSome
  identities : ∀ s ∈ db.snapshots, (s.items.map LedgerItem.identity).Nodup
  reviewed : ∀ s ∈ db.snapshots, ∀ item ∈ s.items, item.status = .reviewed →
    Reviewed db s.projectId item
  projected : ∀ v ∈ db.versions, ∀ p ∈ v.evidenceLedger, ∃ s ∈ db.snapshots, s.id = p.snapshotId ∧
    publicLedgerProjection s = p

/-- The columns that never change, and that no row is deleted. -/
structure Keeps (db db' : Db) : Prop where
  types : ∀ d ∈ db.claimTypes, d ∈ db'.claimTypes
  claims : ∀ c ∈ db.claims, ∃ c' ∈ db'.claims, c'.id = c.id ∧ c'.projectId = c.projectId ∧
    c'.claimType = c.claimType ∧ c'.catalog = c.catalog
  attestations : ∀ a ∈ db.attestations, ∃ a' ∈ db'.attestations, a'.id = a.id ∧
    a'.caseId = a.caseId ∧ a'.claimScope = a.claimScope
  cases : ∀ k ∈ db.cases, k ∈ db'.cases
  joined : ∀ a, (db.joined a).isSome → (db'.joined a).isSome

theorem joined_isSome_iff (a : Attestation) : (db.joined a).isSome ↔
    (∃ c ∈ db.credentials, c.id = a.credentialId) ∧ ∃ s ∈ db.schemas, s.id = a.schemaId := by
  rw [← Table.lookup_isSome_iff, ← Table.lookup_isSome_iff]
  unfold Db.joined
  cases db.credentials.lookup a.credentialId <;> cases db.schemas.lookup a.schemaId <;> simp

theorem joined_mono (credentials : ∀ id, (∃ c ∈ db.credentials, c.id = id) →
      ∃ c ∈ db'.credentials, c.id = id)
    (schemas : ∀ id, (∃ s ∈ db.schemas, s.id = id) → ∃ s ∈ db'.schemas, s.id = id)
    (a : Attestation) (h : (db.joined a).isSome) : (db'.joined a).isSome := by
  obtain ⟨hcredential, hschema⟩ := (joined_isSome_iff a).mp h
  exact (joined_isSome_iff a).mpr ⟨credentials _ hcredential, schemas _ hschema⟩

theorem Keeps.refl (db : Db) : Keeps db db where
  types _ hd := hd
  claims c hc := ⟨c, hc, rfl, rfl, rfl, rfl⟩
  attestations a ha := ⟨a, ha, rfl, rfl, rfl⟩
  cases _ hk := hk
  joined _ h := h

theorem Keeps.projectOf (h : Keeps db db') {a a' : Attestation} (hcase : a'.caseId = a.caseId)
    (hproject : db.projectOf a = some project) : db'.projectOf a' = some project := by
  obtain ⟨k, hk, hid⟩ := Option.map_eq_some_iff.mp hproject
  obtain ⟨hmem, hkey⟩ := Table.lookup_eq_some.mp hk
  unfold Db.projectOf
  rw [hcase, Table.lookup_eq_some.mpr ⟨h.cases k hmem, hkey⟩, ← hid]
  rfl

theorem Reviewed.mono {item : LedgerItem} (h : Reviewed db project item) (keeps : Keeps db db') :
    Reviewed db' project item where
  some' := h.some'
  claim id hid := by
    obtain ⟨c, hc, hcid, hproject, htype, entry, hentry⟩ := h.claim id hid
    obtain ⟨c', hc', hid', hproject', htype', hentry'⟩ := keeps.claims c hc
    exact ⟨c', hc', hid'.trans hcid, hproject'.trans hproject, htype'.trans htype, entry,
      hentry'.trans hentry⟩
  covered id hid := by
    obtain ⟨a, ha, hmem, hscope, hproject⟩ := h.covered id hid
    obtain ⟨a', ha', haid, hcase, hscope'⟩ := keeps.attestations a ha
    exact ⟨a', ha', haid ▸ hmem, hscope' ▸ hscope, keeps.projectOf hcase hproject⟩

theorem keeps_attestations_update {selected : Attestation → Bool} {change : Attestation → Attestation}
    (hid : ∀ a, (change a).id = a.id) (hcase : ∀ a, (change a).caseId = a.caseId)
    (hscope : ∀ a, (change a).claimScope = a.claimScope) :
    Keeps db { db with attestations := db.attestations.update selected change hid } where
  types _ hd := hd
  claims c hc := ⟨c, hc, rfl, rfl, rfl, rfl⟩
  attestations a ha := by
    refine ⟨_, Table.mem_update_of_mem hid ha, ?_⟩
    split
    · exact ⟨hid a, hcase a, hscope a⟩
    · exact ⟨rfl, rfl, rfl⟩
  cases _ hk := hk
  joined _ h := h

theorem keeps_write (w : Write) : Keeps db (db.write w) := by
  cases w with
  | addClaimType row =>
    simp only [Db.write]
    split
    · exact .refl db
    · exact { Keeps.refl db with types := fun d hd => Table.mem_insertIfAbsent_of_mem hd }
  | addClaim row =>
    simp only [Db.write]
    split
    · exact { Keeps.refl db with
        claims := fun c hc => ⟨c, Table.mem_insertIfAbsent_of_mem hc, rfl, rfl, rfl, rfl⟩ }
    · exact .refl db
  | changeClaim id grade staleSince excludedByRule supersededByClaimId =>
    refine { Keeps.refl db with claims := fun c hc => ⟨_, Table.mem_update_of_mem
      (Claim.id_change grade staleSince excludedByRule supersededByClaimId) hc, ?_⟩ }
    split <;> exact ⟨rfl, rfl, rfl, rfl⟩
  | addCase row =>
    exact { Keeps.refl db with cases := fun k hk => Table.mem_insertIfAbsent_of_mem hk }
  | addCredential row =>
    exact { Keeps.refl db with
      joined := joined_mono (fun _ h => h.imp fun _ hc => ⟨Table.mem_insertIfAbsent_of_mem hc.1, hc.2⟩)
        fun _ h => h }
  | changeCredential id currentStatus revokedAt expiresAt =>
    exact { Keeps.refl db with
      joined := joined_mono (fun _ h => (Table.exists_key_update (by exact fun _ => rfl)).mpr h) fun _ h => h }
  | addSchema row =>
    exact { Keeps.refl db with
      joined := joined_mono (fun _ h => h)
        fun _ h => h.imp fun _ hs => ⟨Table.mem_insertIfAbsent_of_mem hs.1, hs.2⟩ }
  | changeSchema id state =>
    exact { Keeps.refl db with
      joined := joined_mono (fun _ h => h) fun _ h => (Table.exists_key_update (by exact fun _ => rfl)).mpr h }
  | draft row =>
    simp only [Db.write]
    split
    · exact { Keeps.refl db with
        attestations := fun a ha => ⟨a, Table.mem_insertIfAbsent_of_mem ha, rfl, rfl, rfl⟩ }
    · exact .refl db
  | sign id signature signedAt =>
    exact keeps_attestations_update _ (fun _ => rfl) fun _ => rfl
  | changeState id state => exact keeps_attestations_update _ (fun _ => rfl) fun _ => rfl
  | takeSnapshot id project evaluatedAt stages applicable =>
    simp only [Db.write]
    split
    · exact { Keeps.refl db with }
    · exact .refl db
  | addEntry row => exact { Keeps.refl db with }
  | publishVersion id entryId publishedAt snapshotId =>
    simp only [Db.write]
    split
    · exact .refl db
    · exact { Keeps.refl db with }
  | changeVersion id status => exact { Keeps.refl db with }
  | other surroundings => exact { Keeps.refl db with }

/-! ### A snapshot taken now -/

/-- The claims of an item, by its catalog entry or by its name. -/
theorem mem_itemClaims (h : Invariant db) {d : ClaimType} (hd : d ∈ db.claimTypes)
    (hkey : isReservedCatalogKey d.claimType = false) {c : LedgerClaim} :
    (c ∈ (db.ledgerClaims project t).filter (·.catalogEntryId = d.id)) ↔
      c ∈ db.ledgerClaimHealth project t ∧ c.claimType = d.claimType ∧
        c.catalogVersion = d.catalogVersion := by
  unfold Db.ledgerClaims
  simp only [List.mem_filter, decide_eq_true_eq, Bool.not_eq_true']
  constructor
  · intro ⟨⟨hhealth, _⟩, hentry⟩
    obtain ⟨row, hrow, entry, -, -, hcatalog, rfl⟩ := mem_ledgerClaimHealth.mp hhealth
    obtain ⟨d', hd', hid, htype, hversion⟩ := h.defined row hrow entry hcatalog
    obtain rfl : d' = d := Table.eq_of_key hd' hd (hid.trans hentry)
    exact ⟨hhealth, htype.symm, hversion.symm⟩
  · intro ⟨hhealth, htype, hversion⟩
    obtain ⟨row, hrow, entry, -, -, hcatalog, rfl⟩ := mem_ledgerClaimHealth.mp hhealth
    obtain ⟨d', hd', hid, htype', hversion'⟩ := h.defined row hrow entry hcatalog
    obtain rfl : d' = d := h.types d' hd' d hd (htype'.trans htype) (hversion'.trans hversion)
    exact ⟨⟨hhealth, htype ▸ hkey⟩, hid.symm⟩

theorem isValid_state {a : Attestation} {basis : Credential × Schema}
    (h : a.isValid t basis = true) : a.state = .signed ∨ a.state = .active := by
  unfold Attestation.isValid at h
  simp only [Bool.and_eq_true, Bool.or_eq_true, decide_eq_true_eq] at h
  exact h.1.1.1.1.1.1.1

theorem mem_catalog {d : ClaimType} (h : d ∈ db.catalog project t) :
    d ∈ db.claimTypes ∧ isReservedCatalogKey d.claimType = false := by
  obtain ⟨hd, hlisted⟩ := List.mem_filter.mp h
  simp only [Bool.and_eq_true, Bool.not_eq_true'] at hlisted
  exact ⟨hd, hlisted.1.2⟩

/-- The evaluator's answer for what the catalog lists under the name of an item. -/
theorem derived_deriveItem (db : Db) (project : Uuid) (t : Instant) (d : ClaimType) :
    Derived ((db.ledgerClaims project t).filter (·.catalogEntryId = d.id))
      (db.ledgerAttestations project t (db.ledgerClaims project t))
      ((db.manual project t).any fun f => f.factKey = d.claimType && f.status = .notApplicable)
      (db.deriveItem project t d).status :=
  derived _ _ _

theorem reviewed_ledgerItem (h : Invariant db) {d : ClaimType} (hd : d ∈ db.catalog project t)
    (hreviewed : (db.ledgerItem project t d).status = .reviewed) :
    Reviewed db project (db.ledgerItem project t d) := by
  obtain ⟨hmem, hkey⟩ := mem_catalog hd
  have hstatus : (db.deriveItem project t d).status = .reviewed := hreviewed
  have hids : ∀ id, id ∈ (db.ledgerItem project t d).claimIds ↔
      ∃ c ∈ (db.ledgerClaims project t).filter (·.catalogEntryId = d.id), c.id = id := by
    intro id
    exact (List.mem_insertionSort _).trans List.mem_map
  have hderived := derived_deriveItem db project t d
  rw [hstatus] at hderived
  cases hderived with
  | reviewed hsome hcovered =>
    refine ⟨fun hnone => ?_, fun id hid => ?_, fun id hid => ?_⟩
    · obtain ⟨c, hc⟩ := List.exists_mem_of_ne_nil _ hsome
      exact List.not_mem_nil (hnone ▸ (hids c.id).mpr ⟨c, hc, rfl⟩)
    · obtain ⟨c, hc, rfl⟩ := (hids id).mp hid
      obtain ⟨hhealth, htype, hversion⟩ := (mem_itemClaims h hmem hkey).mp hc
      obtain ⟨row, hrow, entry, hproject, -, hcatalog, rfl⟩ := mem_ledgerClaimHealth.mp hhealth
      refine ⟨row, hrow, rfl, hproject, htype, entry.1, hcatalog.trans ?_⟩
      exact congrArg (fun version => some (entry.1, version)) hversion
    · obtain ⟨c, hc, rfl⟩ := (hids id).mp hid
      obtain ⟨-, l, hl, hvalid, hscope⟩ := hcovered c hc
      obtain ⟨a, ha, basis, -, hproject, -, -, rfl⟩ := mem_ledgerAttestations.mp hl
      refine ⟨a, ha, mem_attestationIds.mpr ⟨_, hl, ⟨c.id, hscope, c, hc, rfl⟩, ?_, rfl⟩, hscope,
        hproject⟩
      intro hsuperseded
      rcases isValid_state hvalid with hstate | hstate <;>
        exact absurd (hsuperseded.symm.trans hstate) nofun

theorem nodup_identities (h : Invariant db) :
    (((db.catalog project t).map (db.ledgerItem project t)).map LedgerItem.identity).Nodup := by
  rw [List.map_map]
  refine List.Nodup.map_on ?_ ((List.Nodup.of_map _ db.claimTypes.distinct).filter _)
  intro d hd d' hd' hsame
  obtain ⟨htype, hversion⟩ := Prod.mk.inj hsame
  exact h.types d (mem_catalog hd).1 d' (mem_catalog hd').1 htype hversion

/-! ### Every write -/

/-- What only needs that nothing is lost. -/
theorem Invariant.keep (h : Invariant db) (keeps : Keeps db db')
    (types : db'.claimTypes = db.claimTypes) (claims : db'.claims = db.claims)
    (attestations : db'.attestations = db.attestations) (snapshots : db'.snapshots = db.snapshots)
    (versions : db'.versions = db.versions) : Invariant db' where
  types := types ▸ h.types
  defined := by
    rw [types, claims]
    exact h.defined
  joined a ha := keeps.joined a (h.joined a (attestations ▸ ha))
  identities := snapshots ▸ h.identities
  reviewed s hs item hitem hreviewed := (h.reviewed s (snapshots ▸ hs) item hitem hreviewed).mono keeps
  projected := by
    rw [snapshots, versions]
    exact h.projected

/-- A review is added or moves, over the same credential and schema. -/
theorem Invariant.attest (h : Invariant db) {attestations : Table Attestation.id}
    (keeps : Keeps db { db with attestations })
    (joined : ∀ a ∈ attestations, (db.joined a).isSome) : Invariant { db with attestations } where
  types := h.types
  defined := h.defined
  joined := joined
  identities := h.identities
  reviewed s hs item hitem hreviewed := (h.reviewed s hs item hitem hreviewed).mono keeps
  projected := h.projected

theorem joined_update (h : Invariant db) {selected : Attestation → Bool}
    {change : Attestation → Attestation} (hid : ∀ a, (change a).id = a.id)
    (hsame : ∀ a, (change a).credentialId = a.credentialId ∧ (change a).schemaId = a.schemaId) :
    ∀ a ∈ db.attestations.update selected change hid, (db.joined a).isSome := by
  intro a ha
  obtain ⟨b, hb, -, rfl | ⟨-, rfl⟩⟩ := Table.exists_of_mem_update hid ha
  · exact h.joined _ hb
  · have hjoined := (joined_isSome_iff b).mp (h.joined b hb)
    rw [joined_isSome_iff, (hsame b).1, (hsame b).2]
    exact hjoined

theorem Invariant.addClaimType (h : Invariant db) {row : ClaimType}
    (hnew : ∀ d ∈ db.claimTypes, d.claimType = row.claimType → d.catalogVersion ≠ row.catalogVersion) :
    Invariant { db with claimTypes := db.claimTypes.insertIfAbsent row } where
  types d hd d' hd' htype hversion := by
    rcases Table.mem_insertIfAbsent.mp hd with hold | ⟨rfl, -⟩ <;>
      rcases Table.mem_insertIfAbsent.mp hd' with hold' | ⟨rfl, -⟩
    · exact h.types d hold d' hold' htype hversion
    · exact absurd hversion (hnew d hold htype)
    · exact absurd hversion.symm (hnew d' hold' htype.symm)
    · rfl
  defined c hc entry hentry := by
    obtain ⟨d, hd, hmatch⟩ := h.defined c hc entry hentry
    exact ⟨d, Table.mem_insertIfAbsent_of_mem hd, hmatch⟩
  joined := h.joined
  identities := h.identities
  reviewed s hs item hitem hreviewed := by
    have hold := h.reviewed s hs item hitem hreviewed
    exact ⟨hold.some', hold.claim, hold.covered⟩
  projected := h.projected

/-- Claims are added under a definition, and keep the one they have. -/
theorem Invariant.claims (h : Invariant db) {claims : Table Claim.id}
    (keeps : Keeps db { db with claims })
    (defined : ∀ c ∈ claims, ∀ entry ∈ c.catalog, ∃ d ∈ db.claimTypes, d.id = entry.1 ∧
      d.claimType = c.claimType ∧ d.catalogVersion = entry.2) : Invariant { db with claims } where
  types := h.types
  defined := defined
  joined := h.joined
  identities := h.identities
  reviewed s hs item hitem hreviewed := (h.reviewed s hs item hitem hreviewed).mono keeps
  projected := h.projected

theorem Invariant.takeSnapshot (h : Invariant db) {new : Snapshot}
    (identities : (new.items.map LedgerItem.identity).Nodup)
    (reviewed : ∀ item ∈ new.items, item.status = .reviewed → Reviewed db new.projectId item) :
    Invariant { db with snapshots := db.snapshots.insertIfAbsent new } where
  types := h.types
  defined := h.defined
  joined := h.joined
  identities s hs := by
    rcases Table.mem_insertIfAbsent.mp hs with hs | ⟨rfl, -⟩
    · exact h.identities s hs
    · exact identities
  reviewed s hs item hitem hreviewed := by
    have hold : Reviewed db s.projectId item := by
      rcases Table.mem_insertIfAbsent.mp hs with hs | ⟨rfl, -⟩
      · exact h.reviewed s hs item hitem hreviewed
      · exact reviewed item hitem hreviewed
    exact ⟨hold.some', hold.claim, hold.covered⟩
  projected v hv p hp := by
    obtain ⟨s, hs, hprojected⟩ := h.projected v hv p hp
    exact ⟨s, Table.mem_insertIfAbsent_of_mem hs, hprojected⟩

/-- Versions project a stored snapshot. -/
theorem Invariant.versions (h : Invariant db) {versions : Table EntryVersion.id}
    (projected : ∀ v ∈ versions, ∀ p ∈ v.evidenceLedger, ∃ s ∈ db.snapshots, s.id = p.snapshotId ∧
      publicLedgerProjection s = p) : Invariant { db with versions } where
  types := h.types
  defined := h.defined
  joined := h.joined
  identities := h.identities
  reviewed s hs item hitem hreviewed := by
    have hold := h.reviewed s hs item hitem hreviewed
    exact ⟨hold.some', hold.claim, hold.covered⟩
  projected := projected

theorem Invariant.write (h : Invariant db) (w : Write) : Invariant (db.write w) := by
  have keeps : Keeps db (db.write w) := keeps_write w
  cases w with
  | addClaimType row =>
    simp only [Db.write]
    split
    · exact h
    next hfresh =>
      refine h.addClaimType fun d hd htype hversion => hfresh ?_
      exact List.any_eq_true.mpr ⟨d, hd, by simp [htype, hversion]⟩
  | addClaim row =>
    simp only [Db.write] at keeps ⊢
    split
    next hdefined =>
      rw [if_pos hdefined] at keeps
      refine h.claims keeps fun c hc entry hentry => ?_
      rcases Table.mem_insertIfAbsent.mp hc with hc | ⟨rfl, -⟩
      · exact h.defined c hc entry hentry
      · rw [Option.mem_def] at hentry
        rw [hentry, Option.all_some, Option.any_eq_true] at hdefined
        obtain ⟨d, hd, hmatch⟩ := hdefined
        obtain ⟨hmem, hid⟩ := Table.lookup_eq_some.mp hd
        simp only [Bool.and_eq_true, decide_eq_true_eq] at hmatch
        exact ⟨d, hmem, hid, hmatch.1, hmatch.2⟩
    next => exact h
  | changeClaim id grade staleSince excludedByRule supersededByClaimId =>
    refine h.claims keeps fun c hc entry hentry => ?_
    obtain ⟨r, hr, -, rfl | ⟨-, rfl⟩⟩ := Table.exists_of_mem_update _ hc
    · exact h.defined _ hr entry hentry
    · exact h.defined r hr entry hentry
  | addCase row => exact h.keep keeps rfl rfl rfl rfl rfl
  | addCredential row => exact h.keep keeps rfl rfl rfl rfl rfl
  | changeCredential id currentStatus revokedAt expiresAt => exact h.keep keeps rfl rfl rfl rfl rfl
  | addSchema row => exact h.keep keeps rfl rfl rfl rfl rfl
  | changeSchema id state => exact h.keep keeps rfl rfl rfl rfl rfl
  | draft row =>
    simp only [Db.write] at keeps ⊢
    split
    next hlinked =>
      rw [if_pos hlinked] at keeps
      refine h.attest keeps fun a ha => ?_
      rcases Table.mem_insertIfAbsent.mp ha with ha | ⟨rfl, -⟩
      · exact h.joined a ha
      · exact (Bool.and_eq_true_iff.mp hlinked).1
    next => exact h
  | sign id signature signedAt => exact h.attest keeps (joined_update h _ fun _ => ⟨rfl, rfl⟩)
  | changeState id state => exact h.attest keeps (joined_update h _ fun _ => ⟨rfl, rfl⟩)
  | takeSnapshot id project evaluatedAt stages applicable =>
    simp only [Db.write]
    split
    · refine h.takeSnapshot (nodup_identities h) fun item hitem hreviewed => ?_
      obtain ⟨d, hd, rfl⟩ := List.mem_map.mp hitem
      exact reviewed_ledgerItem h hd hreviewed
    · exact h
  | addEntry row => exact h.keep keeps rfl rfl rfl rfl rfl
  | publishVersion id entryId publishedAt snapshotId =>
    simp only [Db.write]
    split
    · exact h
    next snapshot hsnapshot =>
      refine h.versions fun v hv p hp => ?_
      rcases Table.mem_insertIfAbsent.mp hv with hv | ⟨rfl, -⟩
      · exact h.projected v hv p hp
      · cases hp
        exact ⟨snapshot, (Table.lookup_eq_some.mp hsnapshot).1, rfl, rfl⟩
  | changeVersion id status =>
    refine h.versions fun v hv p hp => ?_
    obtain ⟨r, hr, -, rfl | ⟨-, rfl⟩⟩ := Table.exists_of_mem_update _ hv
    · exact h.projected _ hr p hp
    · exact h.projected r hr p hp
  | other surroundings => exact h.keep keeps rfl rfl rfl rfl rfl

theorem invariant_empty : Invariant Db.empty where
  types _ hd := absurd hd (Table.not_mem_empty _)
  defined _ hc := absurd hc (Table.not_mem_empty _)
  joined _ ha := absurd ha (Table.not_mem_empty _)
  identities _ hs := absurd hs (Table.not_mem_empty _)
  reviewed _ hs := absurd hs (Table.not_mem_empty _)
  projected _ hv := absurd hv (Table.not_mem_empty _)

theorem invariant_of_reachable (reached : history.Reachable db) : Invariant db := by
  refine reached.invariant (fun db₀ h₀ => ?_) fun u w v h step => ?_
  · obtain rfl : db₀ = Db.empty := h₀
    exact invariant_empty
  · obtain rfl : u.write w = v := step
    exact h.write w

end MpcRegistry.Ledger
