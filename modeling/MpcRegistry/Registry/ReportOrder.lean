import MpcRegistry.Cre.ReportEncoding
import MpcRegistry.Registry.Invariant

/-!
# The order of the reports of a project

Requests for one project exclude each other, and publications of its records,
from the ledger lock to their commit. So the sequence number, the version and
the time that a request reads in three statements are still the last ones when
its report is stored.
-/
namespace MpcRegistry.Registry
open Library ReadCommitted Canonical Ecma Cre
open Contracts.StatusReceiver (Report)

/-- The number a decimal text stands for. -/
def readNumber (text : Text) : Nat := (parseBigInt text).elim 0 Int.toNat

@[simp] theorem readNumber_decimalText (value : Nat) : readNumber (decimalText value) = value := by
  rw [readNumber, parseBigInt_decimalText]
  rfl

/-! ## What a report is made of -/

section Fields

variable {keccak_256 : Bytes → Digest} {request : ReportRequest} {version : EntryVersion}
  {observedAt validUntil : Nat} {sequence : Text} {status : ℚ} {report : RegistryReport}

theorem readMember_of_readText {members : List (Text × JsonValue)} {key text : Text}
    {schema : Text → Bool} (h : readText members key schema = some text) :
    readMember members key = some (.str text) := by
  unfold readText at h
  split at h
  · next value hvalue =>
    obtain ⟨-, h⟩ := Option.ite_none_right_eq_some.mp h
    cases h
    exact hvalue
  · cases h

/-- The schema returns the texts it was given. -/
theorem creReport_reportObject (h : creReport (reportObject keccak_256 request version observedAt
      validUntil sequence status) = some report) :
    report.recordId = recordIdFor keccak_256 request.publicKey ∧
      report.registryVersion = decimalText version.version ∧
      report.contentHash = version.contentHash ∧ report.observedAt = decimalText observedAt ∧
      report.sequence = sequence := by
  unfold creReport reportObject at h
  obtain ⟨-, h⟩ := Option.ite_none_left_eq_some.mp h
  simp only [Option.bind_eq_bind, Option.bind_eq_some_iff, Option.some.injEq] at h
  obtain ⟨_, -, _, -, _, hrecordId, _, hversion, _, hcontentHash, _, hobservedAt, _, -, _,
    hsequence, _, -, rfl⟩ := h
  have hrecordId := readMember_of_readText hrecordId
  have hversion := readMember_of_readText hversion
  have hcontentHash := readMember_of_readText hcontentHash
  have hobservedAt := readMember_of_readText hobservedAt
  have hsequence := readMember_of_readText hsequence
  cases hrecordId
  cases hversion
  cases hcontentHash
  cases hobservedAt
  cases hsequence
  exact ⟨rfl, rfl, rfl, rfl, rfl⟩

end Fields

/-! ## What the stored reports keep -/

section Keeps

variable (keccak_256 : Bytes → Digest)

/-- The report is about a record of its project, under its key. -/
structure RecordOf (db : Db) (row : CreReport) (entry : Entry) : Prop where
  stored : entry ∈ db.entries
  tenantId : entry.tenantId = row.tenantId
  subjectId : entry.subjectId = row.projectId
  registryType : entry.registryType = .project
  recordId : row.report.recordId = recordIdFor keccak_256 entry.publicKey

/-- It has the number and the content hash of one of the record's versions. -/
def Describes (db : Db) (row : CreReport) : Prop :=
  ∃ entry, RecordOf keccak_256 db row entry ∧ ∃ v ∈ db.versions, v.entryId = entry.id ∧
    row.report.registryVersion = decimalText v.version ∧ row.report.contentHash = v.contentHash

/-- The later of two reports was observed no earlier, and of the same record it
has no lower version. -/
def Precedes (db : Db) (a b : CreReport) : Prop :=
  readNumber a.report.observedAt ≤ readNumber b.report.observedAt ∧
    ∃ ea eb, RecordOf keccak_256 db a ea ∧ RecordOf keccak_256 db b eb ∧ (ea = eb →
      readNumber a.report.registryVersion ≤ readNumber b.report.registryVersion ∧
      (readNumber a.report.registryVersion = readNumber b.report.registryVersion →
        a.report.contentHash = b.report.contentHash))

structure ReportsKept (db : Db) : Prop where
  rendered : ∀ row ∈ db.reports, ∃ wire : Report, render wire = row.report ∧ FieldsInRange wire
  described : ∀ row ∈ db.reports, Describes keccak_256 db row
  observed : ∀ row ∈ db.reports, readNumber row.report.observedAt ≤ epochSeconds db.now
  numbered : ∀ tenantId projectId, (db.reportsOf tenantId projectId).map (·.sequence) =
    List.range' 1 (db.reportsOf tenantId projectId).length
  ordered : ∀ tenantId projectId,
    (db.reportsOf tenantId projectId).Pairwise (Precedes keccak_256 db)

/-! ## What a report request relies on -/

/-- The version is one of the record asked for, and the record has no later one. -/
structure Chosen (db : Db) (request : ReportRequest) (version : EntryVersion) : Prop where
  entry : ∃ e ∈ db.entries, e.id = version.entryId ∧ e.tenantId = request.tenantId ∧
    e.subjectId = request.projectId ∧ e.registryType = .project ∧ e.publicKey = request.publicKey
  known : ∃ v ∈ db.versions, v.SameRecord version
  latest : ∀ number ∈ db.numbersOf version.entryId, number ≤ version.version

/-- No stored report of the project was observed after this request's clock. -/
structure Clocked (db : Db) (observation : Observation) : Prop where
  chosen : Chosen db observation.request observation.version
  passed : observation.evaluatedAt ≤ db.now
  observed : ∀ row ∈ db.reportsOf observation.request.tenantId observation.request.projectId,
    readNumber row.report.observedAt ≤ epochSeconds observation.evaluatedAt

/-- The row is the next report of its project. -/
structure Ready (db : Db) (row : CreReport) : Prop where
  rendered : ∃ wire : Report, render wire = row.report ∧ FieldsInRange wire
  described : ∃ entry, RecordOf keccak_256 db row entry ∧ ∃ v ∈ db.versions,
    v.entryId = entry.id ∧ row.report.registryVersion = decimalText v.version ∧
      row.report.contentHash = v.contentHash ∧ ∀ number ∈ db.numbersOf entry.id, number ≤ v.version
  passed : readNumber row.report.observedAt ≤ epochSeconds db.now
  observed : ∀ other ∈ db.reportsOf row.tenantId row.projectId,
    readNumber other.report.observedAt ≤ readNumber row.report.observedAt
  sequence : row.report.sequence = nextSequence (db.reportsOf row.tenantId row.projectId)

def Reporting.Orders (db : Db) : Reporting → Prop
  | .versionChosen request versionId =>
    ∃ v ∈ db.versions, v.id = versionId ∧ Chosen db request v
  | .versionRead request version _ => Chosen db request version
  | .clockRead observation => Clocked db observation
  | .healthRead observation _ sequence => Clocked db observation ∧ sequence =
      nextSequence (db.reportsOf observation.request.tenantId observation.request.projectId)
  | .observed row => Ready keccak_256 db row
  | .inserted row => Ready keccak_256 db row
  | _ => True

def Point.Orders (db : Db) : Point → Prop
  | .reporting point => point.Orders keccak_256 db
  | _ => True

end Keeps

/-! ## What the ledger lock keeps away -/

/-- Between the two states the project got no report and its records no version. -/
structure Undisturbed (db db' : Db) (tenantId projectId : Uuid) : Prop where
  evolves : Evolves db db'
  numbers : ∀ e ∈ db.entries, e.tenantId = tenantId → e.subjectId = projectId →
    e.registryType = .project → db'.numbersOf e.id = db.numbersOf e.id
  reports : db'.reportsOf tenantId projectId = db.reportsOf tenantId projectId

section Undisturbed

variable {keccak_256 : Bytes → Digest} {db db' : Db}

theorem epochSeconds_le {a b : Nat} (h : a ≤ b) : epochSeconds a ≤ epochSeconds b :=
  Nat.div_le_div_right h

theorem RecordOf.evolves {row : CreReport} {entry : Entry}
    (h : RecordOf keccak_256 db row entry) (hevolves : Evolves db db') :
    RecordOf keccak_256 db' row entry :=
  { h with stored := hevolves.entries entry h.stored }

/-- A version keeps its entry, its number and its content hash. -/
theorem Evolves.version_facts (h : Evolves db db') {v : EntryVersion} (hv : v ∈ db.versions) :
    ∃ v' ∈ db'.versions, v'.id = v.id ∧ v'.entryId = v.entryId ∧ v'.version = v.version ∧
      v'.contentHash = v.contentHash ∧ v'.SameRecord v := by
  obtain ⟨v', hv', hsame⟩ := h.versions v hv
  refine ⟨v', hv', ?_, ?_, ?_, ?_, hsame⟩ <;> rw [hsame]

theorem Describes.evolves {row : CreReport} (h : Describes keccak_256 db row)
    (hevolves : Evolves db db') : Describes keccak_256 db' row := by
  obtain ⟨entry, hrecord, v, hv, hentry, hversion, hhash⟩ := h
  obtain ⟨v', hv', -, hentry', hversion', hhash', -⟩ := hevolves.version_facts hv
  exact ⟨entry, hrecord.evolves hevolves, v', hv', hentry'.trans hentry, hversion' ▸ hversion,
    hhash' ▸ hhash⟩

theorem Precedes.evolves {a b : CreReport} (h : Precedes keccak_256 db a b)
    (hevolves : Evolves db db') : Precedes keccak_256 db' a b := by
  obtain ⟨hobserved, ea, eb, ha, hb, hsame⟩ := h
  exact ⟨hobserved, ea, eb, ha.evolves hevolves, hb.evolves hevolves, hsame⟩

theorem Chosen.undisturbed {request : ReportRequest} {version : EntryVersion}
    (h : Chosen db request version)
    (hquiet : Undisturbed db db' request.tenantId request.projectId) :
    Chosen db' request version := by
  obtain ⟨e, he, hid, htenant, hsubject, htype, hkey⟩ := h.entry
  refine ⟨⟨e, hquiet.evolves.entries e he, hid, htenant, hsubject, htype, hkey⟩, ?_, ?_⟩
  · obtain ⟨v, hv, hsame⟩ := h.known
    obtain ⟨v', hv', hsame'⟩ := hquiet.evolves.versions v hv
    exact ⟨v', hv', hsame'.trans hsame⟩
  · rw [← hid, hquiet.numbers e he htenant hsubject htype, hid]
    exact h.latest

theorem Clocked.undisturbed {observation : Observation} (h : Clocked db observation)
    (hquiet : Undisturbed db db' observation.request.tenantId observation.request.projectId) :
    Clocked db' observation where
  chosen := h.chosen.undisturbed hquiet
  passed := Nat.le_trans h.passed hquiet.evolves.now
  observed := hquiet.reports.symm ▸ h.observed

theorem Ready.undisturbed {row : CreReport} (h : Ready keccak_256 db row)
    (hquiet : Undisturbed db db' row.tenantId row.projectId) : Ready keccak_256 db' row where
  rendered := h.rendered
  described := by
    obtain ⟨entry, hrecord, v, hv, hentry, hversion, hhash, hlatest⟩ := h.described
    obtain ⟨v', hv', -, hentry', hversion', hhash', -⟩ := hquiet.evolves.version_facts hv
    refine ⟨entry, hrecord.evolves hquiet.evolves, v', hv', hentry'.trans hentry,
      hversion' ▸ hversion, hhash' ▸ hhash, ?_⟩
    rw [hquiet.numbers entry hrecord.stored hrecord.tenantId hrecord.subjectId
      hrecord.registryType, hversion']
    exact hlatest
  passed := Nat.le_trans h.passed (epochSeconds_le hquiet.evolves.now)
  observed := hquiet.reports.symm ▸ h.observed
  sequence := hquiet.reports.symm ▸ h.sequence

/-- Whoever holds the ledger locks of a project goes on relying while it is undisturbed. -/
theorem Reporting.Orders.undisturbed {point : Reporting} (h : point.Orders keccak_256 db)
    (hquiet : ∀ tenantId projectId, ledgerLocks tenantId projectId ⊆ point.locks →
      Undisturbed db db' tenantId projectId) : point.Orders keccak_256 db' := by
  cases point with
  | begun _ => trivial
  | keyLocked _ => trivial
  | inputsLocked _ => trivial
  | versionChosen request versionId =>
    have hundisturbed := hquiet request.tenantId request.projectId (List.Subset.refl _)
    obtain ⟨v, hv, hid, hchosen⟩ := h
    obtain ⟨v', hv', hid', hentry, hversion, -, hsame⟩ := hundisturbed.evolves.version_facts hv
    have hchosen' := hchosen.undisturbed hundisturbed
    refine ⟨v', hv', hid'.trans hid, hentry.symm ▸ hchosen'.entry, ⟨v', hv', .refl v'⟩, ?_⟩
    rw [hentry, hversion]
    exact hchosen'.latest
  | versionRead request version lifecycleState =>
    exact Chosen.undisturbed h (hquiet _ _ (List.subset_cons_self _ _))
  | clockRead observation =>
    exact Clocked.undisturbed h (hquiet _ _ (List.subset_cons_self _ _))
  | healthRead observation health sequence =>
    have hundisturbed := hquiet observation.request.tenantId observation.request.projectId
      (List.subset_cons_self _ _)
    exact ⟨h.1.undisturbed hundisturbed, hundisturbed.reports.symm ▸ h.2⟩
  | observed row =>
    exact Ready.undisturbed h (hquiet _ _ (List.subset_cons_self _ _))
  | inserted row =>
    exact Ready.undisturbed h (hquiet _ _
      (List.Subset.trans (List.subset_cons_self _ _) (List.subset_cons_self _ _)))

end Undisturbed

section Steps

variable {keccak_256 : Bytes → Digest} {chainId : Text} {db : Db}

theorem mem_ledgerLocks (tenantId projectId : Uuid) :
    (Lock.project tenantId projectId, LockMode.exclusive) ∈ ledgerLocks tenantId projectId ∧
      (Lock.ledgerProject tenantId projectId, LockMode.exclusive) ∈
        ledgerLocks tenantId projectId := by
  simp [ledgerLocks]

/-- A publication of a record of the project holds the row of the project. -/
theorem Work.Fits.project_mem_locks {work : Work} (h : work.Fits keccak_256 db)
    (htype : work.entry.registryType = .project) :
    (Lock.project work.entry.tenantId work.entry.subjectId, LockMode.exclusive) ∈
      Publishing.workLocks work := by
  have hproject : work.draft.registryType = .project := h.placement.registryType ▸ htype
  rw [h.placement.tenantId, h.placement.subjectId]
  simp [Publishing.workLocks, Publishing.versionLocks, Publishing.placementLocks,
    Publishing.inputLocks, hproject]

theorem Publishing.Relies.fits {work : Work}
    (h : (Point.publishing (.draftDecided work)).Relies keccak_256 db) : work.Fits keccak_256 db := h

/-- While a request holds the ledger locks of a project, no commit of another disturbs it. -/
theorem undisturbed_of_commits {point other : Point} {f : Db → Db} (hcommit : Commits other f)
    (hother : other.Relies keccak_256 db)
    (hcompatible : (registry keccak_256 chainId).Compatible point other) {tenantId projectId : Uuid}
    (hlocks : ledgerLocks tenantId projectId ⊆ point.locks) :
    Undisturbed db (f db) tenantId projectId := by
  have hevolves := evolves_of_commits hcommit db
  obtain ⟨hproject, hledger⟩ := mem_ledgerLocks tenantId projectId
  refine ⟨hevolves, fun e he htenant hsubject htype => ?_, ?_⟩
  · rcases commits_cases hcommit with ⟨work, rfl, rfl⟩ | hquiet
    · have hfits := Publishing.Relies.fits hother
      rw [hfits.numbersOf_apply, if_neg ?_, List.append_nil]
      intro hid
      have hentry := Table.eq_of_key hfits.entry_mem.1 (hevolves.entries e he) hid
      have hmem := hfits.project_mem_locks (hentry ▸ htype)
      rw [hentry, htenant, hsubject] at hmem
      exact hcompatible.not_both (hlocks hproject) hmem
    · rw [numbersOf_eq, numbersOf_eq, (hquiet db).1]
  · cases hcommit with
    | report row =>
      have hother : ¬ (row.tenantId = tenantId ∧ row.projectId = projectId) := by
        rintro ⟨rfl, rfl⟩
        refine hcompatible.not_both (hlocks hledger) (n := .exclusive) ?_
        simp [registry, Point.locks, Reporting.locks, Reporting.versionLocks, ledgerLocks]
      by_cases hfresh : ∃ taken ∈ db.reports, taken.key = row.key
      · simp only [Db.reportsOf, Table.insertIfAbsent_of_taken hfresh]
      · simp only [not_exists, not_and] at hfresh
        simp [Db.reportsOf, Table.rows_insertIfAbsent_of_fresh hfresh, hother]
    | draft _ => rfl
    | reject _ _ => rfl
    | publish _ => rfl
    | revoke _ _ => rfl
    | batch _ _ => rfl

/-- The first reportable version is the last version of its entry. -/
theorem Wellformed.chosen (hdb : Wellformed keccak_256 db) {request : ReportRequest}
    {version : EntryVersion} (h : (db.reportable request).head? = some version) :
    version ∈ db.versions ∧ Chosen db request version := by
  have hmem : ∀ v, v ∈ db.reportable request ↔ v ∈ db.versions ∧ v.tenantId = request.tenantId ∧
      v.status ≠ .draft ∧ v.publishedAt ≠ none ∧ ∃ entry ∈ db.entries, entry.id = v.entryId ∧
        entry.tenantId = request.tenantId ∧ entry.subjectId = request.projectId ∧
        entry.registryType = .project ∧ entry.publicKey = request.publicKey := by
    intro v
    simp [Db.reportable, Table.mem_rows]
  obtain ⟨hversion, htenant, -, -, e, he, hid, hrecord⟩ :=
    (hmem version).mp (List.mem_of_head? h)
  refine ⟨hversion, ⟨e, he, hid, hrecord⟩, ⟨version, hversion, .refl version⟩, ?_⟩
  intro number hnumber
  obtain ⟨v, hv, rfl⟩ := List.mem_map.mp hnumber
  obtain ⟨hv, hentry⟩ := mem_versionsOf.mp hv
  obtain ⟨owner, howner, hownerId, hownerTenant⟩ := hdb.owned v hv
  obtain rfl := Table.eq_of_key howner he (hownerId.trans (hentry.trans hid.symm))
  have hreportable := (hmem v).mpr ⟨hv, hownerTenant.symm.trans hrecord.1, (hdb.visible v hv).1,
    (hdb.visible v hv).2, owner, howner, hownerId, hrecord⟩
  rw [Db.reportable, List.mem_insertionSort] at hreportable
  exact le_of_head?_descending EntryVersion.version h hreportable

theorem mem_reportsOf {tenantId projectId : Uuid} {row : CreReport} :
    row ∈ db.reportsOf tenantId projectId ↔
      row ∈ db.reports ∧ row.tenantId = tenantId ∧ row.projectId = projectId := by
  simp [Db.reportsOf, Table.mem_rows]

/-- What one statement of a report request establishes. -/
theorem Reporting.orders_of_next {p q : Reporting} {lifecycleState : Text} {health : Health}
    (hdb : Wellformed keccak_256 db) (hreports : ReportsKept keccak_256 db)
    (h : p.Orders keccak_256 db)
    (hnext : p.next keccak_256 chainId db lifecycleState health = .ok q) :
    q.Orders keccak_256 db := by
  cases p with
  | begun request =>
    obtain ⟨-, hnext⟩ := Outcome.guard_ok.mp hnext
    cases hnext
    trivial
  | keyLocked request =>
    cases hnext
    trivial
  | inputsLocked request =>
    simp only [next] at hnext
    split at hnext
    · cases hnext
    · next version hfound =>
      cases hnext
      obtain ⟨hmem, hchosen⟩ := hdb.chosen hfound
      exact ⟨version, hmem, rfl, hchosen⟩
  | versionChosen request versionId =>
    simp only [next] at hnext
    split at hnext
    · cases hnext
    · next version hfound =>
      cases hnext
      obtain ⟨v, hv, hid, hchosen⟩ := h
      have hversion := List.mem_of_find?_eq_some hfound
      have hsame : version.id = versionId ∧ version.status ≠ .draft := by
        simpa using List.find?_some hfound
      obtain rfl := Table.eq_of_key hversion hv (hsame.1.trans hid.symm)
      exact hchosen
  | versionRead request version lifecycleState =>
    cases hnext
    exact ⟨h, Nat.le_refl _, fun row hrow => hreports.observed row (mem_reportsOf.mp hrow).1⟩
  | clockRead observation =>
    cases hnext
    exact ⟨h, rfl⟩
  | healthRead observation health sequence =>
    obtain ⟨hclocked, hsequence⟩ := h
    simp only [next] at hnext
    split at hnext
    · cases hnext
    · obtain ⟨-, hnext⟩ := Outcome.guard_ok.mp hnext
      split at hnext
      · cases hnext
      · next report hreport =>
        cases hnext
        obtain ⟨hrecordId, hversion, hhash, hobserved, hseq⟩ := creReport_reportObject hreport
        obtain ⟨e, he, hid, htenant, hsubject, htype, hkey⟩ := hclocked.chosen.entry
        obtain ⟨v, hv, hsame⟩ := hclocked.chosen.known
        rw [EntryVersion.SameRecord] at hsame
        refine ⟨exists_render hreport, ⟨e, ⟨he, htenant, hsubject, htype, hkey ▸ hrecordId⟩, v,
          hv, ?_, ?_, ?_, ?_⟩, ?_, ?_, hseq.trans hsequence⟩
        · rw [hsame]
          exact hid.symm
        · rw [hsame]
          exact hversion
        · rw [hsame]
          exact hhash
        · rw [hid, hsame]
          exact hclocked.chosen.latest
        · rw [hobserved, readNumber_decimalText]
          exact epochSeconds_le hclocked.passed
        · rw [hobserved, readNumber_decimalText]
          exact hclocked.observed
  | observed row =>
    obtain ⟨-, hnext⟩ := Outcome.guard_ok.mp hnext
    obtain ⟨-, hnext⟩ := Outcome.guard_ok.mp hnext
    cases hnext
    exact h
  | inserted row => cases hnext

theorem foldr_max_range' (start count : Nat) :
    (List.range' 1 count).foldr max start = max start count := by
  induction count generalizing start with
  | zero => simp
  | succ count ih =>
    rw [List.range'_1_concat, List.foldr_append, List.foldr_cons, List.foldr_nil, ih]
    omega

theorem ReportsKept.nextSequence_eq (h : ReportsKept keccak_256 db) (tenantId projectId : Uuid) :
    nextSequence (db.reportsOf tenantId projectId) =
      decimalText ((db.reportsOf tenantId projectId).length + 1) := by
  rw [nextSequence, h.numbered, foldr_max_range', Nat.zero_max]

/-- The new report goes behind the others of its project. -/
theorem ReportsKept.insert (h : ReportsKept keccak_256 db) (hdb : Wellformed keccak_256 db)
    {row : CreReport} (hrow : Ready keccak_256 db row) :
    ReportsKept keccak_256 { db with reports := db.reports.insertIfAbsent row } := by
  have hevolves := evolves_of_commits (Commits.report row) db
  have hnumber : row.sequence = (db.reportsOf row.tenantId row.projectId).length + 1 := by
    change readNumber row.report.sequence = _
    rw [hrow.sequence, h.nextSequence_eq, readNumber_decimalText]
  have hfresh : ∀ other ∈ db.reports, other.key ≠ row.key := by
    intro other hother hkey
    simp only [CreReport.key, Prod.mk.injEq] at hkey
    have hmem := List.mem_map_of_mem (f := CreReport.sequence)
      (mem_reportsOf.mpr ⟨hother, hkey.1, hkey.2.1⟩)
    have hsame : other.sequence = row.sequence := congrArg readNumber hkey.2.2
    rw [h.numbered, List.mem_range'_1, hsame, hnumber] at hmem
    omega
  have hreports : ∀ tenantId projectId,
      Db.reportsOf { db with reports := db.reports.insertIfAbsent row } tenantId projectId =
        db.reportsOf tenantId projectId ++
          if row.tenantId = tenantId ∧ row.projectId = projectId then [row] else [] := by
    intro tenantId projectId
    rw [Db.reportsOf, Table.rows_insertIfAbsent_of_fresh hfresh, List.filter_append, Db.reportsOf]
    by_cases hown : row.tenantId = tenantId ∧ row.projectId = projectId <;> simp [hown]
  have hcases : ∀ other ∈ db.reports.insertIfAbsent row, other ∈ db.reports ∨ other = row :=
    fun other hother => (Table.mem_insertIfAbsent.mp hother).imp_right And.left
  obtain ⟨entry, hrecord, v, hv, hentry, hversion, hhash, hlatest⟩ := hrow.described
  refine ⟨fun other hother => ?_, fun other hother => ?_, fun other hother => ?_,
    fun tenantId projectId => ?_, fun tenantId projectId => ?_⟩
  · rcases hcases other hother with hother | rfl
    · exact h.rendered other hother
    · exact hrow.rendered
  · rcases hcases other hother with hother | rfl
    · exact (h.described other hother).evolves hevolves
    · exact Describes.evolves ⟨entry, hrecord, v, hv, hentry, hversion, hhash⟩ hevolves
  · rcases hcases other hother with hother | rfl
    · exact h.observed other hother
    · exact hrow.passed
  · rw [hreports]
    split
    · next hown =>
      obtain ⟨rfl, rfl⟩ := hown
      rw [List.map_append, h.numbered, List.length_append, List.length_singleton,
        List.range'_1_concat, List.map_singleton, hnumber, Nat.add_comm 1]
    · rw [List.append_nil]
      exact h.numbered tenantId projectId
  · rw [hreports, List.pairwise_append]
    refine ⟨(h.ordered tenantId projectId).imp fun hab => hab.evolves hevolves, ?_,
      fun a ha b hb => ?_⟩
    · split
      · exact List.pairwise_singleton _ _
      · exact .nil
    · split at hb
      · next hown =>
        obtain ⟨rfl, rfl⟩ := hown
        rw [List.mem_singleton] at hb
        subst hb
        obtain ⟨ea, harecord, va, hva, haentry, haversion, hahash⟩ :=
          h.described a (mem_reportsOf.mp ha).1
        refine ⟨hrow.observed a ha, ea, entry, harecord.evolves hevolves,
          hrecord.evolves hevolves, ?_⟩
        rintro rfl
        rw [haversion, hversion, readNumber_decimalText, readNumber_decimalText, hahash, hhash]
        refine ⟨hlatest _ (haentry ▸ mem_numbersOf hva), fun hsame => ?_⟩
        rw [hdb.version_unique hva hv (haentry.trans hentry.symm) hsame]
      · cases hb

/-- A commit that stores no report. -/
theorem ReportsKept.evolves {db' : Db} (h : ReportsKept keccak_256 db) (hevolves : Evolves db db')
    (hreports : db'.reports = db.reports) : ReportsKept keccak_256 db' := by
  have hof : ∀ tenantId projectId, db'.reportsOf tenantId projectId =
      db.reportsOf tenantId projectId := fun tenantId projectId => by
    rw [Db.reportsOf, Db.reportsOf, hreports]
  refine ⟨fun row hrow => h.rendered row (hreports ▸ hrow),
    fun row hrow => (h.described row (hreports ▸ hrow)).evolves hevolves,
    fun row hrow => ?_, fun tenantId projectId => ?_, fun tenantId projectId => ?_⟩
  · exact Nat.le_trans (h.observed row (hreports ▸ hrow)) (epochSeconds_le hevolves.now)
  · rw [hof]
    exact h.numbered tenantId projectId
  · rw [hof]
    exact (h.ordered tenantId projectId).imp fun hab => hab.evolves hevolves

/-- Only a report request stores a report. -/
theorem commits_report_cases {point : Point} {f : Db → Db} (h : Commits point f) :
    (∃ row, point = .reporting (.inserted row) ∧
      f = fun db => { db with reports := db.reports.insertIfAbsent row }) ∨
      ∀ db, (f db).reports = db.reports := by
  cases h with
  | report row => exact .inl ⟨row, rfl, rfl⟩
  | draft _ => exact .inr fun _ => rfl
  | reject _ _ => exact .inr fun _ => rfl
  | publish _ => exact .inr fun _ => rfl
  | revoke _ _ => exact .inr fun _ => rfl
  | batch _ _ => exact .inr fun _ => rfl

theorem reportsKept_of_startsEmpty (h : StartsEmpty db) : ReportsKept keccak_256 db := by
  obtain ⟨now, rfl⟩ := h
  exact ⟨fun _ hrow => absurd hrow (Table.not_mem_empty _),
    fun _ hrow => absurd hrow (Table.not_mem_empty _),
    fun _ hrow => absurd hrow (Table.not_mem_empty _), fun _ _ => rfl, fun _ _ => .nil⟩

/-- The layer above the invariant of the tables. -/
theorem orders_maintains (keccak_256 : Bytes → Digest) (chainId : Text)
    (ok : State Nat Db Point → Action Nat Given → Prop) :
    (registry keccak_256 chainId).Maintains
      (fun s a => ok s a ∧
        (registry keccak_256 chainId).Sound (Wellformed keccak_256) (Point.Relies keccak_256) s)
      (ReportsKept keccak_256) (Point.Orders keccak_256) where
  idle _ _ := trivial
  statement s w given q hs hok hnext := by
    have hw := hs.relies w
    have hmoves := Point.moves_of_next hnext
    generalize s.point w = point at hmoves hw
    cases hmoves with
    | arrives => cases given.request <;> trivial
    | reporting ran => exact Reporting.orders_of_next hok.2.committed hs.committed hw ran
    | _ => trivial
  commit s w f hs hok heffect := by
    have hcommit := commits_of_effect heffect
    rcases commits_report_cases hcommit with ⟨row, hpoint, rfl⟩ | hquiet
    · have hw := hs.relies w
      rw [hpoint] at hw
      exact hs.committed.insert hok.2.committed hw
    · exact hs.committed.evolves (evolves_of_commits hcommit _) (hquiet _)
  stable s w v f hs hok hne heffect := by
    have hv := hs.relies v
    have hcompatible := hs.compatible v w hne
    cases hpoint : s.point v with
    | reporting point =>
      rw [hpoint] at hv hcompatible
      exact Reporting.Orders.undisturbed hv fun tenantId projectId hlocks =>
        undisturbed_of_commits (commits_of_effect heffect) (hok.2.relies w) hcompatible hlocks
    | _ => trivial
  outside s given db hs hmoved := by
    cases hmoved
    have hevolves := evolves_elapsed s.committed given.elapsed
    refine ⟨hs.committed.evolves hevolves rfl, fun w => ?_⟩
    have hw := hs.relies w
    cases hpoint : s.point w with
    | reporting point =>
      rw [hpoint] at hw
      exact Reporting.Orders.undisturbed hw fun _ _ _ =>
        ⟨hevolves, fun _ _ _ _ _ => rfl, rfl⟩
    | _ => trivial

end Steps

end MpcRegistry.Registry
