import MpcRegistry.Ledger.Snapshots

/-!
# The public warning is no milder than the private evaluator

Both look at the claims and reviews of an item. The public function looks at more of them:
what was frozen besides what is current, so whatever the evaluator finds wrong it finds too.
That a reviewed item stays reviewed without a warning rests on the reviews that the snapshot
keeps.
-/
namespace MpcRegistry.Ledger
open Library Documents Utf16

variable {db : Db} {project : Uuid} {t : Instant}

/-! ## One item, looked at from both sides -/

theorem latestFact_key {key : Text} {f : FactVersion} (h : db.latestFact project key = some f) :
    f.factKey = key := by
  have hmem := List.mem_of_mem_head? h
  rw [List.mem_insertionSort] at hmem
  have hselected := (List.mem_filter.mp hmem).2
  simp only [Bool.and_eq_true, decide_eq_true_eq] at hselected
  exact hselected.2

theorem manual_any_iff {d : ClaimType} (hd : d ∈ db.catalog project t) :
    ((db.manual project t).any fun f => f.factKey = d.claimType && f.status = .notApplicable) = true ↔
      (db.latestFact project d.claimType).map FactVersion.status = some .notApplicable := by
  unfold Db.manual
  simp only [List.any_eq_true, List.mem_filterMap, List.mem_dedup, List.mem_map, Bool.and_eq_true,
    decide_eq_true_eq, Option.map_eq_some_iff]
  constructor
  · intro ⟨f, ⟨key, _, hf⟩, hkey, hstatus⟩
    have : key = d.claimType := (latestFact_key hf).symm.trans hkey
    exact ⟨f, this ▸ hf, hstatus⟩
  · intro ⟨f, hf, hstatus⟩
    exact ⟨f, ⟨d.claimType, ⟨d, hd, rfl⟩, hf⟩, latestFact_key hf, hstatus⟩

section Item

variable {viewed : Viewed} {item : LedgerItem} {d : ClaimType}

theorem mem_scopedHealth (h : Invariant db)
    (hd : d ∈ db.catalog viewed.snapshot.projectId viewed.evaluatedAt)
    (htype : d.claimType = item.claimType) (hversion : d.catalogVersion = item.catalogVersion)
    {c : LedgerClaim} (hc : c ∈ (db.ledgerClaims viewed.snapshot.projectId viewed.evaluatedAt).filter
      (·.catalogEntryId = d.id)) :
    c ∈ db.scopedHealth viewed item := by
  obtain ⟨hmem, hkey⟩ := mem_catalog hd
  obtain ⟨hhealth, hctype, hcversion⟩ := (mem_itemClaims h hmem hkey).mp hc
  refine List.mem_filter.mpr ⟨hhealth, decide_eq_true (List.mem_append_right _ ?_)⟩
  obtain ⟨row, hrow, entry, hproject, hcurrent, hcatalog, rfl⟩ := mem_ledgerClaimHealth.mp hhealth
  refine List.mem_map.mpr ⟨row, List.mem_filter.mpr ⟨hrow, ?_⟩, rfl⟩
  have hrtype : row.claimType = item.claimType := hctype.trans htype
  have hrversion : entry.2 = item.catalogVersion := hcversion.trans hversion
  simp [hproject, hcurrent, hcatalog, hrtype, hrversion]

/-- A claim that is healthy in the evaluator's sense comes from a row that is looked at too. -/
theorem exists_scopedClaim {c : LedgerClaim} (hc : c ∈ db.scopedHealth viewed item) :
    ∃ row ∈ db.scopedClaims viewed item, row.id = c.id ∧ row.grade = c.grade ∧
      row.excludedByRule = c.excludedByRule := by
  obtain ⟨hhealth, hscoped⟩ := List.mem_filter.mp hc
  obtain ⟨row, hrow, entry, -, -, -, rfl⟩ := mem_ledgerClaimHealth.mp hhealth
  exact ⟨row, List.mem_filter.mpr ⟨hrow, hscoped⟩, rfl, rfl, rfl⟩

theorem mem_scopedAttestations {claims : List LedgerClaim} {a : Attestation} {l : LedgerAttestation}
    (hclaims : ∀ c ∈ claims, c ∈ db.scopedHealth viewed item) (ha : a ∈ db.attestations)
    (hproject : db.projectOf a = some viewed.snapshot.projectId) (hdraft : a.state ≠ .draft)
    (hstate : a.state ≠ .superseded) (hscope : l.claimScope = a.claimScope)
    (hcovers : Covers claims l) : a ∈ db.scopedAttestations viewed item := by
  obtain ⟨id, hid, c, hc, hcid⟩ := hcovers
  have hscoped := of_decide_eq_true (List.mem_filter.mp (hclaims c hc)).2
  refine List.mem_filter.mpr ⟨ha, decide_eq_true (List.mem_append_right _ ?_)⟩
  refine List.mem_map.mpr ⟨a, List.mem_filter.mpr ⟨ha, ?_⟩, rfl⟩
  simp only [Bool.and_eq_true, decide_eq_true_eq, List.any_eq_true]
  exact ⟨⟨⟨hproject, hdraft⟩, hstate⟩, id, hscope ▸ hid, hcid ▸ hscoped⟩

/-- Both know an exclusion from the latest version of the fact. -/
theorem excludedNow_eq_manual (hd : d ∈ db.catalog viewed.snapshot.projectId viewed.evaluatedAt)
    (htype : d.claimType = item.claimType) : db.excludedNow viewed item =
      (db.manual viewed.snapshot.projectId viewed.evaluatedAt).any fun f =>
        f.factKey = d.claimType && f.status = .notApplicable := by
  have hkey : isReservedCatalogKey item.claimType = false := htype ▸ (mem_catalog hd).2
  unfold Db.excludedNow Db.manualApplicability
  rw [hkey, Bool.eq_iff_iff, manual_any_iff hd, htype]
  simp

variable (viewed) (h : Invariant db) (hd : d ∈ db.catalog viewed.snapshot.projectId viewed.evaluatedAt)
  (htype : d.claimType = item.claimType) (hversion : d.catalogVersion = item.catalogVersion)

include h hd htype hversion

theorem isConflicting_of_private
    (hp : (db.deriveItem viewed.snapshot.projectId viewed.evaluatedAt d).status = .conflicting) :
    db.isConflicting viewed item = true := by
  have hscoped := fun c => mem_scopedHealth h hd htype hversion (c := c)
  have hderived := derived_deriveItem db viewed.snapshot.projectId viewed.evaluatedAt d
  rw [hp] at hderived
  cases hderived with
  | conflict hc hconflict =>
    obtain ⟨hhealth, hid⟩ := List.mem_filter.mp (hscoped _ hc)
    obtain ⟨row, -, entry, -, -, -, rfl⟩ := mem_ledgerClaimHealth.mp hhealth
    obtain ⟨id, hmem⟩ := List.exists_mem_of_ne_nil _ hconflict
    obtain ⟨k, hk, -⟩ := List.mem_map.mp hmem
    obtain ⟨hkmem, hopen⟩ := List.mem_filter.mp hk
    simp only [Bool.and_eq_true, decide_eq_true_eq] at hopen
    refine Bool.or_eq_true_iff.mpr (.inl (List.any_eq_true.mpr ⟨k, hkmem, ?_⟩))
    rw [hopen.1, hopen.2, hid]
    rfl
  | disputed hl hcovers hstate =>
    obtain ⟨a, ha, basis, -, hproject, hdraft, -, rfl⟩ := mem_ledgerAttestations.mp hl
    have hdisputed : a.state = .disputed := hstate
    refine Bool.or_eq_true_iff.mpr (.inr (List.any_eq_true.mpr ⟨a, ?_, decide_eq_true hdisputed⟩))
    refine mem_scopedAttestations hscoped ha hproject hdraft ?_ rfl hcovers
    rw [hdisputed]
    nofun

theorem isInvalidated_of_private
    (hp : (db.deriveItem viewed.snapshot.projectId viewed.evaluatedAt d).status = .needsReReview) :
    db.isInvalidated viewed item = true := by
  have hscoped := fun c => mem_scopedHealth h hd htype hversion (c := c)
  have hderived := derived_deriveItem db viewed.snapshot.projectId viewed.evaluatedAt d
  rw [hp] at hderived
  unfold Db.isInvalidated
  simp only [Bool.or_eq_true, List.any_eq_true]
  cases hderived with
  | stale hc hstale => exact .inl (.inl (.inl ⟨_, hscoped _ hc, hstale⟩))
  | lapsed hl hcovers hinvalid hstate =>
    obtain ⟨a, ha, basis, hbasis, hproject, hdraft, -, rfl⟩ := mem_ledgerAttestations.mp hl
    refine .inr ⟨a, mem_scopedAttestations hscoped ha hproject hdraft hstate rfl hcovers, ?_⟩
    rw [hbasis]
    exact (isLapsed_iff a basis).mpr hinvalid

theorem isRejected_of_private
    (hp : (db.deriveItem viewed.snapshot.projectId viewed.evaluatedAt d).status = .rejected) :
    db.isRejected viewed item = true := by
  have hderived := derived_deriveItem db viewed.snapshot.projectId viewed.evaluatedAt d
  rw [hp] at hderived
  cases hderived with
  | rejected hc hrejected =>
    obtain ⟨row, hrow, -, hgrade, hexcluded⟩ :=
      exists_scopedClaim (mem_scopedHealth h hd htype hversion hc)
    refine List.any_eq_true.mpr ⟨row, hrow, ?_⟩
    rw [hgrade, hexcluded]
    simpa using hrejected

/-- Without a warning each claim of a reviewed item is still current. -/
theorem exists_current_of_reviewed (hreviewed : Reviewed db viewed.snapshot.projectId item)
    (hvalid : db.isInvalidated viewed item = false) :
    ∃ c, c ∈ (db.ledgerClaims viewed.snapshot.projectId viewed.evaluatedAt).filter
      (·.catalogEntryId = d.id) := by
  obtain ⟨hmem, hkey⟩ := mem_catalog hd
  obtain ⟨id, hid⟩ := List.exists_mem_of_ne_nil _ hreviewed.some'
  obtain ⟨row, hrow, rfl, hproject, hrtype, entry, hentry⟩ := hreviewed.claim id hid
  have hcurrent : row.supersededByClaimId = none := by
    by_contra hsuperseded
    unfold Db.isInvalidated at hvalid
    simp only [Bool.or_eq_false_iff, List.any_eq_false] at hvalid
    refine hvalid.1.1.2 row ?_ (Option.isSome_iff_ne_none.mpr hsuperseded)
    exact List.mem_filter.mpr ⟨hrow, decide_eq_true (List.mem_append_left _ hid)⟩
  refine ⟨_, (mem_itemClaims h hmem hkey).mpr ⟨mem_ledgerClaimHealth.mpr
    ⟨row, hrow, _, hproject, hcurrent, hentry, rfl⟩, hrtype.trans htype.symm, hversion.symm⟩⟩

/-- Without a warning a claim that is still counted is covered by a review that counts. -/
theorem exists_review_of_reviewed (hreviewed : Reviewed db viewed.snapshot.projectId item)
    (hvalid : db.isInvalidated viewed item = false) (hevidence : db.lacksEvidence viewed item = false)
    (hincluded : db.excludedNow viewed item = false) {c : LedgerClaim}
    (hc : c ∈ (db.ledgerClaims viewed.snapshot.projectId viewed.evaluatedAt).filter
      (·.catalogEntryId = d.id)) :
    c.hasEvidence = true ∧ ∃ a ∈ db.attestations, ∃ basis, db.joined a = some basis ∧
      db.projectOf a = some viewed.snapshot.projectId ∧ c.id ∈ a.claimScope ∧
      a.isValid viewed.evaluatedAt basis = true := by
  obtain ⟨hmem, hkey⟩ := mem_catalog hd
  obtain ⟨hhealth, hctype, hcversion⟩ := (mem_itemClaims h hmem hkey).mp hc
  unfold Db.lacksEvidence at hevidence
  simp only [hincluded, Bool.or_eq_false_iff, List.any_eq_false, Bool.not_false, Bool.and_true,
    Bool.not_eq_true', Bool.not_eq_false, Bool.and_eq_true, decide_eq_true_eq, not_and,
    not_not] at hevidence
  refine ⟨hevidence.1 c (mem_scopedHealth h hd htype hversion hc), ?_⟩
  by_cases hfrozen : c.id ∈ item.claimIds
  · obtain ⟨a, ha, hid, hscope, hproject⟩ := hreviewed.covered c.id hfrozen
    obtain ⟨basis, hbasis⟩ := Option.isSome_iff_exists.mp (h.joined a ha)
    refine ⟨a, ha, basis, hbasis, hproject, hscope, ?_⟩
    unfold Db.isInvalidated at hvalid
    simp only [Bool.or_eq_false_iff, List.any_eq_false] at hvalid
    have hkept := hvalid.2 a (List.mem_filter.mpr ⟨ha, decide_eq_true (List.mem_append_left _ hid)⟩)
    rw [hbasis, Option.any_some, isLapsed_iff, Bool.not_eq_false] at hkept
    exact hkept
  · have hcovered : db.hasCurrentReview viewed c.id = true := by
      by_contra hnot
      exact hfrozen (hevidence.2 c hhealth
        ⟨⟨hctype.trans htype, hcversion.trans hversion⟩, Bool.eq_false_of_not_eq_true hnot⟩)
    unfold Db.hasCurrentReview at hcovered
    obtain ⟨a, ha, hbasis⟩ := List.any_eq_true.mp hcovered
    obtain ⟨basis, hjoined, hreview⟩ := (Option.any_eq_true _ _).mp hbasis
    simp only [Bool.and_eq_true, decide_eq_true_eq] at hreview
    exact ⟨a, ha, basis, hjoined, hreview.1.1, hreview.1.2, hreview.2⟩

/-- A reviewed item without a warning is reviewed or excluded by hand. -/
theorem reviewed_of_no_warning (hreviewed : Reviewed db viewed.snapshot.projectId item)
    (hnone : db.warningStatus viewed item = none) :
    (db.deriveItem viewed.snapshot.projectId viewed.evaluatedAt d).status = .reviewed ∨
      (db.deriveItem viewed.snapshot.projectId viewed.evaluatedAt d).status = .notApplicable := by
  have hconflict := fun hp => isConflicting_of_private viewed h hd htype hversion hp
  have hinvalid := fun hp => isInvalidated_of_private viewed h hd htype hversion hp
  have hreject := fun hp => isRejected_of_private viewed h hd htype hversion hp
  unfold Db.warningStatus at hnone
  split at hnone
  · cases hnone
  next hnotConflicting =>
    split at hnone
    · cases hnone
    next hnotInvalidated =>
      split at hnone
      · cases hnone
      next hnotRejected =>
        split at hnone
        · cases hnone
        next hnotPositive =>
          have hvalid : db.isInvalidated viewed item = false := by simpa using hnotInvalidated
          have hevidence : db.lacksEvidence viewed item = false := by
            by_contra hlacks
            exact hnotPositive (by simp [hlacks])
          have hderived := derived_deriveItem db viewed.snapshot.projectId viewed.evaluatedAt d
          cases hp : (db.deriveItem viewed.snapshot.projectId viewed.evaluatedAt d).status with
          | reviewed => exact .inl rfl
          | notApplicable => exact .inr rfl
          | conflicting => exact absurd (hconflict hp) hnotConflicting
          | needsReReview => exact absurd (hinvalid hp) hnotInvalidated
          | rejected => exact absurd (hreject hp) hnotRejected
          | missing =>
            rw [hp] at hderived
            cases hderived with
            | missing hempty =>
              obtain ⟨c, hc⟩ := exists_current_of_reviewed viewed h hd htype hversion hreviewed hvalid
              rw [hempty] at hc
              cases hc
          | unreviewed =>
            rw [hp] at hderived
            cases hderived with
            | unreviewed happlicable hc huncovered =>
              have hincluded : db.excludedNow viewed item = false := by
                rw [excludedNow_eq_manual hd htype]
                exact happlicable
              obtain ⟨hevidenced, a, ha, basis, hbasis, hproject, hscope, hisValid⟩ :=
                exists_review_of_reviewed viewed h hd htype hversion hreviewed hvalid hevidence hincluded hc
              refine absurd hscope (huncovered hevidenced
                { id := a.id, claimScope := a.claimScope, state := a.state,
                  limitations := a.limitations, valid := a.isValid viewed.evaluatedAt basis }
                (mem_ledgerAttestations.mpr ⟨a, ha, basis, hbasis, hproject, ?_, ?_, rfl⟩) hisValid)
              · rcases isValid_state hisValid with hstate | hstate <;> rw [hstate] <;> nofun
              · exact ⟨_, hscope, _, (List.mem_filter.mp hc).1, rfl⟩

end Item

/-! ## The published record -/

/-- The warning of an approved item. -/
def warningOf (warnings : List Warning) (approved : PublicLedgerItem) : Option LedgerItemStatus :=
  (warnings.find? fun w => w.claimType = approved.claimType &&
    w.catalogVersion = approved.catalogVersion).map Warning.status

/-- Of items with different names each finds its own warning. -/
theorem find?_warning {items : List LedgerItem} {item : LedgerItem}
    {status : LedgerItem → Option LedgerItemStatus} (hitem : item ∈ items)
    (identities : (items.map LedgerItem.identity).Nodup) :
    ((items.filterMap fun i => (status i).map fun s =>
        ({ claimType := i.claimType, catalogVersion := i.catalogVersion, status := s } : Warning)).find?
          fun w => w.claimType = item.claimType && w.catalogVersion = item.catalogVersion).map
            Warning.status = status item := by
  have hunique : ∀ i ∈ items, i.claimType = item.claimType → i.catalogVersion = item.catalogVersion →
      i = item := fun i hi htype hversion =>
    List.inj_on_of_nodup_map identities hi hitem (Prod.ext htype hversion)
  generalize hwarnings : (items.filterMap fun i => (status i).map fun s =>
    ({ claimType := i.claimType, catalogVersion := i.catalogVersion, status := s } : Warning)) = warnings
  have hmem : ∀ w, w ∈ warnings ↔ ∃ i ∈ items, ∃ s, status i = some s ∧
      { claimType := i.claimType, catalogVersion := i.catalogVersion, status := s } = w := by
    intro w
    simp only [← hwarnings, List.mem_filterMap, Option.map_eq_some_iff]
  cases hfind : warnings.find? fun w => w.claimType = item.claimType &&
      w.catalogVersion = item.catalogVersion with
  | some w =>
    obtain ⟨i, hi, s, hs, rfl⟩ := (hmem w).mp (List.mem_of_find?_eq_some hfind)
    have hsame := List.find?_some hfind
    simp only [Bool.and_eq_true, decide_eq_true_eq] at hsame
    rw [hunique i hi hsame.1 hsame.2] at hs
    exact hs.symm
  | none =>
    cases hstatus : status item with
    | none => rfl
    | some s =>
      have hnot := List.find?_eq_none.mp hfind _ ((hmem _).mpr ⟨item, hitem, s, hstatus, rfl⟩)
      simp at hnot

theorem mem_of_frozen (h : Invariant db) {version : Uuid} {projection : LedgerProjection}
    {snapshot : Snapshot} (hfrozen : db.frozen version = some (projection, snapshot)) :
    snapshot ∈ db.snapshots ∧ publicLedgerProjection snapshot = projection := by
  unfold Db.frozen at hfrozen
  obtain ⟨v, hv, hfrozen⟩ := Option.bind_eq_some_iff.mp hfrozen
  split at hfrozen
  · obtain ⟨entry, -, hfrozen⟩ := Option.bind_eq_some_iff.mp hfrozen
    split at hfrozen
    · obtain ⟨p, hp, hfrozen⟩ := Option.bind_eq_some_iff.mp hfrozen
      obtain ⟨s, hs, hfrozen⟩ := Option.bind_eq_some_iff.mp hfrozen
      split at hfrozen
      · cases hfrozen
        obtain ⟨hmem, hid⟩ := Table.lookup_eq_some.mp hs
        obtain ⟨s', hs', hid', hprojection⟩ := h.projected v (Table.lookup_eq_some.mp hv).1 _ hp
        obtain rfl : s' = snapshot := Table.eq_of_key hs' hmem (hid'.trans hid.symm)
        exact ⟨hmem, hprojection⟩
      · cases hfrozen
    · cases hfrozen
  · cases hfrozen

/-- Whatever is written after it, the public warning for an approved item of a published
version is no milder than what the private evaluator would now say of it. -/
theorem public_no_milder (reached : history.Reachable db) {version : Uuid}
    {projection : LedgerProjection} {snapshot : Snapshot}
    (hfrozen : db.frozen version = some (projection, snapshot)) {approved : PublicLedgerItem}
    (happroved : approved ∈ projection.items) {d : ClaimType}
    (hd : d ∈ db.catalog snapshot.projectId t) (htype : d.claimType = approved.claimType)
    (hversion : d.catalogVersion = approved.catalogVersion) :
    ∃ warnings, db.publicEvidenceLedgerCurrent version t = some warnings ∧
      ((db.deriveItem snapshot.projectId t d).status = .conflicting →
        warningOf warnings approved = some .conflicting) ∧
      ((db.deriveItem snapshot.projectId t d).status = .needsReReview →
        warningOf warnings approved = some .conflicting ∨
          warningOf warnings approved = some .needsReReview) ∧
      ((db.deriveItem snapshot.projectId t d).status = .rejected →
        warningOf warnings approved ≠ none) ∧
      (approved.status = .reviewed → warningOf warnings approved = none →
        (db.deriveItem snapshot.projectId t d).status = .reviewed ∨
          (db.deriveItem snapshot.projectId t d).status = .notApplicable) := by
  have h : Invariant db := invariant_of_reachable reached
  obtain ⟨hsnapshot, rfl⟩ := mem_of_frozen h hfrozen
  obtain ⟨item, hitem, rfl⟩ := List.mem_map.mp happroved
  refine ⟨_, by rw [Db.publicEvidenceLedgerCurrent, hfrozen, Option.map_some], ?_⟩
  -- every item of the snapshot was approved
  have hall : (snapshot.items.filter fun i => (publicLedgerProjection snapshot).items.any fun p =>
      p.claimType = i.claimType && p.catalogVersion = i.catalogVersion) = snapshot.items := by
    refine List.filter_eq_self.mpr fun i hi => ?_
    exact List.any_eq_true.mpr ⟨i.toPublic, List.mem_map_of_mem hi, by simp [LedgerItem.toPublic]⟩
  have hwarning : warningOf _ item.toPublic = db.warningStatus ⟨version, snapshot, t⟩ item :=
    find?_warning hitem (h.identities snapshot hsnapshot)
  dsimp only
  rw [hall, hwarning]
  have hconflict : (db.deriveItem snapshot.projectId t d).status = .conflicting →
      db.isConflicting ⟨version, snapshot, t⟩ item = true :=
    isConflicting_of_private ⟨version, snapshot, t⟩ h hd htype hversion
  have hinvalid : (db.deriveItem snapshot.projectId t d).status = .needsReReview →
      db.isInvalidated ⟨version, snapshot, t⟩ item = true :=
    isInvalidated_of_private ⟨version, snapshot, t⟩ h hd htype hversion
  have hreject : (db.deriveItem snapshot.projectId t d).status = .rejected →
      db.isRejected ⟨version, snapshot, t⟩ item = true :=
    isRejected_of_private ⟨version, snapshot, t⟩ h hd htype hversion
  refine ⟨fun hp => ?_, fun hp => ?_, fun hp => ?_, fun hreviewed hnone => ?_⟩
  · unfold Db.warningStatus
    rw [if_pos (hconflict hp)]
  · unfold Db.warningStatus
    rw [if_pos (hinvalid hp)]
    split
    · exact .inl rfl
    · exact .inr rfl
  · unfold Db.warningStatus
    rw [if_pos (hreject hp)]
    split
    · nofun
    · split <;> nofun
  · exact reviewed_of_no_warning ⟨version, snapshot, t⟩ h hd htype hversion (h.reviewed snapshot hsnapshot item hitem hreviewed)
      hnone

/-- A project with one claim, reviewed and published. -/
def published : List Write :=
  [.other { Surroundings.empty with
      projects := Table.empty.insertIfAbsent ⟨1, units "KOR"⟩,
      receipts := Table.empty.insertIfAbsent ⟨2, some 1, true, units "fresh", none⟩ },
    .addClaimType ⟨3, units "resource_estimate", 1, units "Resource estimate", 0⟩,
    .addClaim ⟨4, 1, units "resource_estimate", some (3, 1), .verified, none, none, some 2, [], none,
      false⟩,
    .addCase ⟨5, 1⟩, .addCredential ⟨6, .valid, none, none⟩, .addSchema ⟨7, .active⟩,
    .draft ⟨8, 5, 6, 7, [4], units "none", [], 0, none, .draft⟩, .sign 8 (units "0x01") 1,
    .takeSnapshot 9 1 2 [] (some []), .addEntry ⟨10, .project, 1⟩, .publishVersion 11 10 3 9]

/-- The review is disputed later, and the public is warned. -/
theorem warned_of_dispute : ∃ db warnings approved, history.Reachable db ∧
    db.publicEvidenceLedgerCurrent 11 4 = some warnings ∧ approved.status = .reviewed ∧
      warningOf warnings approved = some .conflicting := by
  have run : history.Run Db.empty (published ++ [Write.changeState 8 .disputed])
      ((published ++ [Write.changeState 8 .disputed]).foldl Db.write Db.empty) :=
    System.run_ofExec _ _
  generalize hdb : (published ++ [Write.changeState 8 .disputed]).foldl Db.write Db.empty = db at run
  have reached : history.Reachable db := ⟨Db.empty, _, rfl, run⟩
  have hcheck : ∃ frozen ∈ db.frozen 11, ∃ approved ∈ frozen.1.items,
      ∃ d ∈ db.catalog frozen.2.projectId 4, d.claimType = approved.claimType ∧
        d.catalogVersion = approved.catalogVersion ∧ approved.status = .reviewed ∧
        (db.deriveItem frozen.2.projectId 4 d).status = .conflicting := by
    subst hdb
    decide +kernel
  obtain ⟨⟨projection, snapshot⟩, hfrozen, approved, happroved, d, hd, htype, hversion, hreviewed,
    hp⟩ := hcheck
  obtain ⟨warnings, hwarnings, hconflicting, -⟩ :=
    public_no_milder reached hfrozen happroved hd htype hversion
  exact ⟨db, warnings, approved, reached, hwarnings, hreviewed, hconflicting hp⟩

end MpcRegistry.Ledger
