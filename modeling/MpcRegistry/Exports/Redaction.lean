import MpcRegistry.Exports.Package

/-!
# What a package keeps back

Two databases are alike for a job when they agree on all that its clearance lets the package show.
Every item and every order but one is taken from that. Receipts are listed by the time they were
received, also those that are reduced to their id, so a package shows how these times compare.
-/
namespace MpcRegistry.Exports
open Library Library.Outcome Canonical
open Registry (Uuid EntryStatus)

/-! ## What two databases may differ in -/

/-- A row whose gated columns are blank unless the clearance covers them. -/
def ExportJob.shown {ρ : Type} (job : ExportJob) (blank : ρ → ρ) (row : ρ) : ρ :=
  if job.restricted then row else blank row

def Attestation.blank (a : Attestation) : Attestation :=
  { a with signerWalletAddress := [], limitations := [] }

def GateDecision.blank (d : GateDecision) : GateDecision :=
  { d with decisionMakerSubjectId := [], rationale := [], assumptions := [], conditions := [] }

def RegistryEntryVersion.blank (v : RegistryEntryVersion) : RegistryEntryVersion :=
  if v.status = .draft then { v with publicProjection := .null } else v

def SourceReceipt.blank (r : SourceReceipt) : SourceReceipt :=
  { r with endpointOrDocumentRef := [] }

/-- A receipt as the clearance shows it, or its id and permission. -/
def SourceReceipt.seen (job : ExportJob) (r : SourceReceipt) :
    Uuid × Sensitivity × Option SourceReceipt :=
  (r.id, r.disclosurePermission, if job.clears r then some (job.shown SourceReceipt.blank r) else none)

structure Alike (job : ExportJob) (a b : Db) : Prop where
  projects : a.projects = b.projects
  cases : a.cases = b.cases
  entries : a.entries = b.entries
  batches : a.batches = b.batches
  leaves : a.leaves = b.leaves
  transactions : a.transactions = b.transactions
  attestations : a.attestations.rows.map (job.shown Attestation.blank) =
    b.attestations.rows.map (job.shown Attestation.blank)
  versions : a.versions.rows.map (job.shown RegistryEntryVersion.blank) =
    b.versions.rows.map (job.shown RegistryEntryVersion.blank)
  decisions : a.decisions.rows.map (job.shown GateDecision.blank) =
    b.decisions.rows.map (job.shown GateDecision.blank)
  receipts : a.receipts.rows.map (SourceReceipt.seen job) =
    b.receipts.rows.map (SourceReceipt.seen job)

/-- The receipts of the project are the same ones, and any two were received in the same order;
those received at once are ordered by their ids. -/
def SameReceiptOrder (job : ExportJob) (a b : Db) : Prop :=
  ∀ r ∈ a.receipts, ∀ r' ∈ b.receipts, r.id = r'.id →
    SourceReceipt.exported job r = SourceReceipt.exported job r' ∧
    ∀ s ∈ a.receipts, ∀ s' ∈ b.receipts, s.id = s'.id →
      SourceReceipt.exported job r = true → SourceReceipt.exported job s = true →
      (r.orderKey ≤ s.orderKey ↔ r'.orderKey ≤ s'.orderKey)

/-- An item of the anchor section whose proof leads from its leaf hash to its computed root. -/
def ProofVerifies (keccak_256 : Bytes → Digest) (item : JsValue) : Prop :=
  ∃ leafHash proof root, member (units "leafHash") item = some (.str leafHash) ∧
    member (units "proof") item = some (textArray 2 proof) ∧
    member (units "computedRoot") item = some (.str root) ∧
    verifyMerkleProof keccak_256 leafHash proof root = .ok true

section Shown

variable {job : ExportJob}

theorem shown_of_restricted {ρ : Type} {blank : ρ → ρ} (h : job.restricted = true) (row : ρ) :
    job.shown blank row = row := by
  rw [ExportJob.shown, if_pos h]

theorem shown_of_not_restricted {ρ : Type} {blank : ρ → ρ} (h : job.restricted = false) (row : ρ) :
    job.shown blank row = blank row := by
  rw [ExportJob.shown, if_neg (by simp [h])]

/-- What blanking leaves alone is read of a shown row. -/
theorem apply_shown {ρ σ : Type} {blank : ρ → ρ} {f : ρ → σ} (h : ∀ row, f (blank row) = f row)
    (row : ρ) : f (job.shown blank row) = f row := by
  unfold ExportJob.shown
  split
  · rfl
  · exact h row

theorem gated_of_not_restricted (h : job.restricted = false) (value : ColumnValue) :
    job.gated value = .null := by
  rw [ExportJob.gated, if_neg (by simp [h])]

theorem attestationItem_shown (a : Attestation) :
    attestationItem job (job.shown Attestation.blank a) = attestationItem job a := by
  cases h : job.restricted with
  | true => rw [shown_of_restricted h]
  | false =>
    rw [shown_of_not_restricted h]
    simp only [attestationItem, gated_of_not_restricted h, Attestation.blank]

theorem decisionItem_shown (d : GateDecision) :
    decisionItem job (job.shown GateDecision.blank d) = decisionItem job d := by
  cases h : job.restricted with
  | true => rw [shown_of_restricted h]
  | false =>
    rw [shown_of_not_restricted h]
    simp only [decisionItem, gated_of_not_restricted h, GateDecision.blank]

theorem versionItem_shown (row : VersionRow) :
    versionItem { row with version := job.shown RegistryEntryVersion.blank row.version } =
      versionItem row := by
  unfold ExportJob.shown
  split
  · rfl
  · unfold RegistryEntryVersion.blank
    split
    · next hdraft => simp only [versionItem, hdraft, if_true]
    · rfl

theorem clearedReceipt_shown (r : SourceReceipt) :
    clearedReceipt job (job.shown SourceReceipt.blank r) = clearedReceipt job r := by
  cases h : job.restricted with
  | true => rw [shown_of_restricted h]
  | false =>
    rw [shown_of_not_restricted h]
    simp only [clearedReceipt, gated_of_not_restricted h, SourceReceipt.blank]

theorem receiptItem_of_seen {r s : SourceReceipt} (h : r.seen job = s.seen job) :
    receiptItem job r = receiptItem job s := by
  simp only [SourceReceipt.seen, Prod.mk.injEq] at h
  obtain ⟨hid, hpermission, hcleared⟩ := h
  have hclears : job.clears r = job.clears s := by
    rw [ExportJob.clears, ExportJob.clears, hpermission]
  rw [hclears] at hcleared
  rw [receiptItem, receiptItem, hclears]
  split
  · next hs =>
    rw [if_pos hs, if_pos hs, Option.some.injEq] at hcleared
    rw [← clearedReceipt_shown r, hcleared, clearedReceipt_shown]
  · rw [redactedReceipt, redactedReceipt, hid, hpermission]

theorem member_id_receiptItem (r : SourceReceipt) :
    member (units "id") (receiptItem job r) = some (.str r.id) := by
  unfold receiptItem
  split <;> rfl

end Shown

/-! ## Queries over databases that are alike -/

section Alike

variable {job : ExportJob} {a b : Db}

theorem Alike.caseOfProject (h : Alike job a b) : a.caseOfProject job = b.caseOfProject job := by
  funext caseId
  rw [Db.caseOfProject, Db.caseOfProject, h.cases]

theorem Alike.attestationItems (h : Alike job a b) :
    (a.exportedAttestations job).map (attestationItem job) =
      (b.exportedAttestations job).map (attestationItem job) := by
  have hexported : Attestation.exported job a = Attestation.exported job b := by
    funext row
    rw [Attestation.exported, Attestation.exported, h.caseOfProject]
  rw [Db.exportedAttestations, Db.exportedAttestations, hexported]
  exact map_filter_orderBy_of_view h.attestations (apply_shown fun _ => rfl)
    (apply_shown fun _ => rfl) attestationItem_shown

theorem Alike.decisionItems (h : Alike job a b) :
    (a.exportedDecisions job).map (decisionItem job) =
      (b.exportedDecisions job).map (decisionItem job) :=
  map_filter_orderBy_of_view h.decisions (apply_shown fun _ => rfl) (apply_shown fun _ => rfl)
    decisionItem_shown

theorem Alike.isExportSubject (h : Alike job a b) :
    a.isExportSubject job = b.isExportSubject job := by
  funext subjectId
  let reviewed : Attestation → Bool := fun row =>
    row.id = subjectId && b.caseOfProject job row.caseId
  have hany : a.attestations.rows.map reviewed = b.attestations.rows.map reviewed :=
    map_of_view h.attestations (apply_shown fun _ => rfl)
  rw [Db.isExportSubject, Db.isExportSubject, h.caseOfProject]
  refine congrArg (subjectId = job.projectId || b.caseOfProject job subjectId || ·) ?_
  simpa only [List.any_map, Function.id_comp] using congrArg (List.any · id) hany

/-- A version row as the clearance shows it. -/
def VersionRow.shown (job : ExportJob) (row : VersionRow) : VersionRow :=
  { row with version := job.shown RegistryEntryVersion.blank row.version }

theorem blank_version (v : RegistryEntryVersion) :
    v.blank.id = v.id ∧ v.blank.tenantId = v.tenantId ∧ v.blank.entryId = v.entryId ∧
      v.blank.version = v.version := by
  unfold RegistryEntryVersion.blank
  split <;> exact ⟨rfl, rfl, rfl, rfl⟩

theorem versionRow_shown (db : Db) (v : RegistryEntryVersion) :
    db.versionRow job (job.shown RegistryEntryVersion.blank v) =
      (db.versionRow job v).map (VersionRow.shown job) := by
  have htenant : (job.shown RegistryEntryVersion.blank v).tenantId = v.tenantId :=
    apply_shown (fun v => (blank_version v).2.1) v
  have hentry : (job.shown RegistryEntryVersion.blank v).entryId = v.entryId :=
    apply_shown (fun v => (blank_version v).2.2.1) v
  rw [Db.versionRow, Db.versionRow, htenant, hentry]
  cases db.entries.lookup v.entryId with
  | none => rfl
  | some e =>
    simp only [Option.bind_some]
    split <;> rfl

theorem Alike.versionRows (h : Alike job a b) :
    (a.exportedVersions job).map (VersionRow.shown job) =
      (b.exportedVersions job).map (VersionRow.shown job) := by
  have hrow : a.versionRow job = b.versionRow job := by
    funext v
    rw [Db.versionRow, Db.versionRow, h.entries, h.isExportSubject]
  have hmap : ∀ db : Db, (db.exportedVersions job).map (VersionRow.shown job) =
      orderBy VersionRow.orderKey
        ((db.versions.rows.map (job.shown RegistryEntryVersion.blank)).filterMap
          (db.versionRow job)) := by
    intro db
    have hkey : ∀ row : VersionRow, (row.shown job).orderKey = row.orderKey := by
      intro row
      have hversion : (job.shown RegistryEntryVersion.blank row.version).version =
          row.version.version :=
        apply_shown (fun v => (blank_version v).2.2.2) row.version
      simp only [VersionRow.orderKey, VersionRow.shown, hversion]
    rw [Db.exportedVersions, map_orderBy _ fun row _ => hkey row, List.map_filterMap,
      List.filterMap_map]
    refine congrArg (fun f => orderBy _ (db.versions.rows.filterMap f)) (funext fun v => ?_)
    exact (versionRow_shown db v).symm
  rw [hmap, hmap, hrow, h.versions]

theorem Alike.versionItems (h : Alike job a b) :
    (a.exportedVersions job).map versionItem = (b.exportedVersions job).map versionItem :=
  map_of_view h.versionRows versionItem_shown

theorem Alike.versionIds (h : Alike job a b) :
    (a.exportedVersions job).map (·.version.id) = (b.exportedVersions job).map (·.version.id) := by
  let versionId : VersionRow → Uuid := fun row => row.version.id
  have hid : ∀ row : VersionRow, versionId (row.shown job) = versionId row := fun row =>
    apply_shown (fun v => (blank_version v).1) row.version
  exact map_of_view h.versionRows hid

theorem Alike.exportedLeaves (h : Alike job a b) (versionIds : List Uuid) :
    a.exportedLeaves job versionIds = b.exportedLeaves job versionIds := by
  have hrow : a.leafRow job versionIds = b.leafRow job versionIds := by
    funext l
    simp only [Db.leafRow, Db.latestTransaction, h.batches, h.transactions]
  rw [Db.exportedLeaves, Db.exportedLeaves, hrow, h.leaves]

/-- The one list whose order the view of its rows does not give. -/
theorem Alike.receiptItems (h : Alike job a b) (horder : SameReceiptOrder job a b) :
    (a.exportedReceipts job).map (receiptItem job) =
      (b.exportedReceipts job).map (receiptItem job) := by
  obtain ⟨pairs, ha, hb, hpairs⟩ := exists_pairs h.receipts
  have hfirst : ∀ pair ∈ pairs, pair.1 ∈ a.receipts := by
    intro pair hpair
    rw [← Table.mem_rows, ha]
    exact List.mem_map_of_mem hpair
  have hsecond : ∀ pair ∈ pairs, pair.2 ∈ b.receipts := by
    intro pair hpair
    rw [← Table.mem_rows, hb]
    exact List.mem_map_of_mem hpair
  have hid : ∀ pair ∈ pairs, pair.1.id = pair.2.id :=
    fun pair hpair => congrArg Prod.fst (hpairs pair hpair)
  rw [Db.exportedReceipts, Db.exportedReceipts, ha, hb]
  refine map_filter_orderBy_eq (fun pair hpair => receiptItem_of_seen (hpairs pair hpair)) ?_ ?_
  · intro r hr
    exact (horder r.1 (hfirst r hr) r.2 (hsecond r hr) (hid r hr)).1
  · intro r hr s hs
    exact (horder r.1 (hfirst r hr) r.2 (hsecond r hr) (hid r hr)).2 s.1 (hfirst s hs) s.2
      (hsecond s hs) (hid s hs)

theorem nodup_exported (db : Db) :
    ((db.receipts.rows.filter (SourceReceipt.exported job)).map SourceReceipt.id).Nodup :=
  (List.filter_sublist.map SourceReceipt.id).nodup db.receipts.distinct

theorem id_of_orderKey {r s : SourceReceipt} (h : r.orderKey = s.orderKey) : r.id = s.id :=
  congrArg (fun key => (ofLex key).2) h

theorem exported_iff (db : Db) {r : SourceReceipt} (hr : r ∈ db.receipts) :
    SourceReceipt.exported job r = true ↔ r.id ∈ (db.exportedReceipts job).map SourceReceipt.id := by
  rw [Db.exportedReceipts, List.mem_map]
  simp only [mem_orderBy, List.mem_filter]
  constructor
  · intro hexported
    exact ⟨r, ⟨hr, hexported⟩, rfl⟩
  · intro h
    obtain ⟨s, ⟨hs, hexported⟩, hid⟩ := h
    rwa [← Table.eq_of_key hs hr hid]

/-- The ids in the package tell which receipts there are and how their times compare. -/
theorem sameReceiptOrder_of_ids
    (h : (a.exportedReceipts job).map SourceReceipt.id =
      (b.exportedReceipts job).map SourceReceipt.id) : SameReceiptOrder job a b := by
  have hexported : ∀ r ∈ a.receipts, ∀ r' ∈ b.receipts, r.id = r'.id →
      SourceReceipt.exported job r = SourceReceipt.exported job r' := by
    intro r hr r' hr' hid
    rw [Bool.eq_iff_iff, exported_iff a hr, exported_iff b hr', h, hid]
  intro r hr r' hr' hrid
  refine ⟨hexported r hr r' hr' hrid, ?_⟩
  intro s hs s' hs' hsid hrin hsin
  have hrin' := hexported r hr r' hr' hrid ▸ hrin
  have hsin' := hexported s hs s' hs' hsid ▸ hsin
  exact key_le_iff_of_names_eq (nodup_exported a) (nodup_exported b) (fun _ _ => id_of_orderKey) h
    (List.mem_filter.mpr ⟨hr, hrin⟩) (List.mem_filter.mpr ⟨hs, hsin⟩)
    (List.mem_filter.mpr ⟨hr', hrin'⟩) (List.mem_filter.mpr ⟨hs', hsin'⟩) ⟨hrid, hsid⟩

end Alike

/-! ## The package -/

section Package

variable {keccak_256 : Bytes → Digest} {sha256 : Bytes → Text} {job : ExportJob}
variable {generatedAt : Instant} {a b : Db}

/-- Records that give the same items give the same package. -/
theorem assemble_congr {left right : ExportRecords} (hproject : left.project = right.project)
    (hversions : left.registryVersions.map versionItem = right.registryVersions.map versionItem)
    (hattestations : left.attestations.map (attestationItem job) =
      right.attestations.map (attestationItem job))
    (hreceipts : left.sourceReceipts.map (receiptItem job) =
      right.sourceReceipts.map (receiptItem job))
    (hdecisions : left.gateDecisions.map (decisionItem job) =
      right.gateDecisions.map (decisionItem job))
    (hleaves : left.anchorLeaves = right.anchorLeaves)
    (hbatches : left.batchLeaves = right.batchLeaves) :
    assembleExportPackage keccak_256 sha256 job left generatedAt =
      assembleExportPackage keccak_256 sha256 job right generatedAt := by
  simp only [assembleExportPackage, hproject, hversions, hattestations, hreceipts, hdecisions,
    hleaves, hbatches]

/-- What a package holds in its sections. -/
theorem exists_of_buildPackage {built : ExportPackage × Text}
    (h : buildPackage keccak_256 sha256 job generatedAt a = .ok built) :
    ∃ records proofs, loadExportRecords a job = .ok records ∧
      records.anchorLeaves.mapM (proofItem keccak_256 records.batchLeaves) = .ok proofs ∧
      built.1.sections = [
        (units "registryVersions", records.registryVersions.map versionItem),
        (units "attestations", records.attestations.map (attestationItem job)),
        (units "sourceReceipts", records.sourceReceipts.map (receiptItem job)),
        (units "gateDecisions", records.gateDecisions.map (decisionItem job)),
        (units "anchorProofs", proofs)] := by
  obtain ⟨records, hload, h⟩ := bind_ok.mp h
  obtain ⟨proofs, hproofs, h⟩ := bind_ok.mp h
  obtain ⟨entries, -, h⟩ := bind_ok.mp h
  obtain ⟨hash, -, h⟩ := bind_ok.mp h
  cases h
  exact ⟨records, proofs, hload, hproofs, rfl⟩

theorem receipts_of_load {records : ExportRecords} (h : loadExportRecords a job = .ok records) :
    records.sourceReceipts = a.exportedReceipts job := by
  unfold loadExportRecords at h
  split at h
  · cases h
  · cases h
    rfl

theorem buildPackage_eq (h : Alike job a b) (horder : SameReceiptOrder job a b) :
    buildPackage keccak_256 sha256 job generatedAt a =
      buildPackage keccak_256 sha256 job generatedAt b := by
  unfold buildPackage loadExportRecords
  rw [h.projects]
  split
  · rfl
  · have hleaves : a.exportedLeaves job ((a.exportedVersions job).map (·.version.id)) =
        b.exportedLeaves job ((b.exportedVersions job).map (·.version.id)) :=
      (h.exportedLeaves _).trans (congrArg (b.exportedLeaves job) h.versionIds)
    refine assemble_congr rfl h.versionItems h.attestationItems (h.receiptItems horder)
      h.decisionItems hleaves ?_
    simp only [hleaves, Db.leavesOfBatches, h.leaves]

theorem sameReceiptOrder_of_buildPackage {built : ExportPackage × Text}
    (ha : buildPackage keccak_256 sha256 job generatedAt a = .ok built)
    (hb : buildPackage keccak_256 sha256 job generatedAt b = .ok built) :
    SameReceiptOrder job a b := by
  obtain ⟨left, leftProofs, hleft, -, hsections⟩ := exists_of_buildPackage ha
  obtain ⟨right, rightProofs, hright, -, hsections'⟩ := exists_of_buildPackage hb
  have hitems : (a.exportedReceipts job).map (receiptItem job) =
      (b.exportedReceipts job).map (receiptItem job) := by
    rw [hsections, List.cons.injEq, List.cons.injEq, List.cons.injEq] at hsections'
    rw [← receipts_of_load hleft, ← receipts_of_load hright]
    exact congrArg Prod.snd hsections'.2.2.1
  refine sameReceiptOrder_of_ids ?_
  have hids := congrArg (List.map (member (units "id"))) hitems
  rw [List.map_map, List.map_map] at hids
  have hsome : member (units "id") ∘ receiptItem job =
      (fun id => some (JsValue.str id)) ∘ SourceReceipt.id :=
    funext member_id_receiptItem
  rw [hsome, ← List.map_map, ← List.map_map] at hids
  exact List.map_injective_iff.mpr (fun _ _ heq => JsValue.str.inj (Option.some.inj heq)) hids

theorem headD_layersFrom {fuel : Nat} {current : List Text} {layers : List (List Text)}
    (h : layersFrom keccak_256 fuel current = .ok layers) : layers.headD [] = current := by
  cases fuel with
  | zero =>
    cases h
    rfl
  | succ fuel =>
    unfold layersFrom at h
    split at h
    · obtain ⟨next, -, h⟩ := bind_ok.mp h
      obtain ⟨rest, -, h⟩ := bind_ok.mp h
      cases h
      rfl
    · cases h
      rfl

theorem mem_of_getMerkleProof {leaves : List Text} {tree : MerkleTree} {leafHash : Text}
    {proof : List Text} (hbuild : buildMerkleTree keccak_256 leaves = .ok tree)
    (h : getMerkleProof tree leafHash = .ok proof) : leafHash ∈ leaves := by
  obtain ⟨-, -, -, layers, hlayers, rfl⟩ := buildMerkleTree_ok hbuild
  by_contra habsent
  have hnone : (leaves.insertionSort (· ≤ ·)).idxOf? leafHash = none :=
    List.idxOf?_eq_none_iff.mpr fun hmem => habsent ((List.mem_insertionSort _).mp hmem)
  rw [getMerkleProof, headD_layersFrom hlayers, hnone] at h
  cases h

theorem proofVerifies_of_proofItem {batchLeaves : List (Uuid × List Text)} {row : AnchorLeafRow}
    {item : JsValue} (h : proofItem keccak_256 batchLeaves row = .ok item) :
    ProofVerifies keccak_256 item := by
  obtain ⟨tree, hbuild, h⟩ := bind_ok.mp h
  obtain ⟨proof, hproof, h⟩ := bind_ok.mp h
  cases h
  obtain ⟨hne, hdistinct, hbytes, -⟩ := buildMerkleTree_ok hbuild
  obtain ⟨built, hbuilt, hall⟩ := proof_of_every_leaf keccak_256 hne hdistinct hbytes
  obtain rfl : built = tree := Except.ok.inj (hbuilt.symm.trans hbuild)
  obtain ⟨other, hother, hverify, -⟩ := hall _ (mem_of_getMerkleProof hbuild hproof)
  obtain rfl : other = proof := Except.ok.inj (hother.symm.trans hproof)
  exact ⟨row.leafHash, other, built.root, rfl, rfl, rfl, hverify⟩

end Package

/-- For databases that are alike, the packages are the same exactly when the receipts of the
project are, in the order of the times they were received; every proof in a package verifies. -/
theorem export_redaction (keccak_256 : Bytes → Digest) (sha256 : Bytes → Text) (job : ExportJob)
    (generatedAt : Instant) (a b : Db) (h : Alike job a b) :
    (SameReceiptOrder job a b → buildPackage keccak_256 sha256 job generatedAt a =
      buildPackage keccak_256 sha256 job generatedAt b) ∧
    (∀ left right, buildPackage keccak_256 sha256 job generatedAt a = .ok left →
      buildPackage keccak_256 sha256 job generatedAt b = .ok right →
      (left = right ↔ SameReceiptOrder job a b)) ∧
    ∀ built, buildPackage keccak_256 sha256 job generatedAt a = .ok built →
      ∃ items, built.1.sections.lookup (units "anchorProofs") = some items ∧
        ∀ item ∈ items, ProofVerifies keccak_256 item := by
  refine ⟨buildPackage_eq h, ?_, ?_⟩
  · intro left right hleft hright
    constructor
    · intro hsame
      exact sameReceiptOrder_of_buildPackage hleft (hsame ▸ hright)
    · intro horder
      rw [buildPackage_eq h horder, hright, Except.ok.injEq] at hleft
      exact hleft.symm
  · intro built hbuilt
    obtain ⟨records, proofs, -, hproofs, hsections⟩ := exists_of_buildPackage hbuilt
    refine ⟨proofs, by rw [hsections]; rfl, ?_⟩
    intro item hitem
    obtain ⟨row, -, hrow⟩ := exists_of_mapM_ok hproofs hitem
    exact proofVerifies_of_proofItem hrow

/-! ## Two receipts that are withheld -/

def publicJob : ExportJob where
  id := units "e1"
  tenantId := units "t1"
  projectId := units "p1"
  requestedBySubjectId := units "s1"
  requestedByWallet := none
  sensitivityClearance := [units "public"]
  requestedAt := 0

def withheldReceipt (id : Uuid) (receivedAt : Instant) : SourceReceipt where
  id
  tenantId := units "t1"
  projectId := some (units "p1")
  authorityId := units "a1"
  collectionMethod := units "api"
  result := units "confirmed_from_source"
  endpointOrDocumentRef := units "https://source.example"
  rawHash := none
  sourceSchemaVersion := units "1"
  adapterVersion := units "1"
  normalizationVersion := none
  termsLicense := units "internal"
  commercialReuse := units "unconfirmed"
  disclosurePermission := .confidential
  receivedAt
  asOf := 0
  effectiveAt := none
  freshnessStatus := units "fresh"
  limitations := []

/-- A project with two receipts that no one outside may read. -/
def receivedDb (first second : Instant) : Db where
  projects := ⟨[⟨units "p1", units "t1", units "MN-01"⟩], by decide⟩
  cases := .empty
  attestations := .empty
  entries := .empty
  versions := .empty
  receipts := ⟨[withheldReceipt (units "r1") first, withheldReceipt (units "r2") second], by
    simp [withheldReceipt]; decide⟩
  decisions := .empty
  batches := .empty
  leaves := []
  transactions := .empty

def lengthHash (bytes : Bytes) : Text := decimal bytes.length

theorem alike_receivedDb (first second other last : Instant) :
    Alike publicJob (receivedDb first second) (receivedDb other last) :=
  ⟨rfl, rfl, rfl, rfl, rfl, rfl, rfl, rfl, rfl, rfl⟩

theorem export_redaction_withheld :
    (SameReceiptOrder publicJob (receivedDb 1 2) (receivedDb 1 3) →
      buildPackage goldenKeccak lengthHash publicJob 0 (receivedDb 1 2) =
        buildPackage goldenKeccak lengthHash publicJob 0 (receivedDb 1 3)) ∧
    (∀ left right, buildPackage goldenKeccak lengthHash publicJob 0 (receivedDb 1 2) = .ok left →
      buildPackage goldenKeccak lengthHash publicJob 0 (receivedDb 1 3) = .ok right →
      (left = right ↔ SameReceiptOrder publicJob (receivedDb 1 2) (receivedDb 1 3))) ∧
    ∀ built, buildPackage goldenKeccak lengthHash publicJob 0 (receivedDb 1 2) = .ok built →
      ∃ items, built.1.sections.lookup (units "anchorProofs") = some items ∧
        ∀ item ∈ items, ProofVerifies goldenKeccak item :=
  export_redaction goldenKeccak lengthHash publicJob 0 _ _ (alike_receivedDb 1 2 1 3)

/-- The package shows which of the two came first. -/
theorem export_redaction_received_at :
    Alike publicJob (receivedDb 1 2) (receivedDb 2 1) ∧
      ∃ left right, buildPackage goldenKeccak lengthHash publicJob 0 (receivedDb 1 2) = .ok left ∧
        buildPackage goldenKeccak lengthHash publicJob 0 (receivedDb 2 1) = .ok right ∧
        left ≠ right := by
  have hbuilt : ∀ db, (buildPackage goldenKeccak lengthHash publicJob 0 db).isOk = true →
      ∃ built, buildPackage goldenKeccak lengthHash publicJob 0 db = .ok built := by
    intro db hok
    cases hbuild : buildPackage goldenKeccak lengthHash publicJob 0 db with
    | error e =>
      rw [hbuild] at hok
      cases hok
    | ok built => exact ⟨built, rfl⟩
  obtain ⟨left, hleft⟩ := hbuilt (receivedDb 1 2) (by decide +kernel)
  obtain ⟨right, hright⟩ := hbuilt (receivedDb 2 1) (by decide +kernel)
  refine ⟨alike_receivedDb 1 2 2 1, left, right, hleft, hright, ?_⟩
  intro hsame
  have horder := sameReceiptOrder_of_buildPackage hleft (hsame ▸ hright)
  have hids := (horder (withheldReceipt (units "r1") 1) List.mem_cons_self
    (withheldReceipt (units "r1") 2) List.mem_cons_self rfl).2
    (withheldReceipt (units "r2") 2) (List.mem_cons_of_mem _ List.mem_cons_self)
    (withheldReceipt (units "r2") 1) (List.mem_cons_of_mem _ List.mem_cons_self) rfl
    (by decide) (by decide)
  revert hids
  decide +kernel

end MpcRegistry.Exports
