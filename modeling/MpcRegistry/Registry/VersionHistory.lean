import MpcRegistry.Registry.Invariant

/-!
# The history of the versions of an entry

The tables keep the numbering, the one published version, the subject of a key
and the content hashes through every run. A publication marks the latest version
as superseded whatever its status is, so a revoked version stays revoked only
where no publication of its entry follows.
-/
namespace MpcRegistry.Registry
open Library ReadCommitted Canonical

/-- What one state of the tables shows of the histories of all entries. -/
structure History (keccak_256 : Bytes → Digest) (db : Db) : Prop where
  numbered : ∀ entryId, (db.versionsOf entryId).map (·.version) =
    List.range' 1 (db.versionsOf entryId).length
  published : ∀ v ∈ db.versions, v.status = .published →
    ∀ u ∈ db.versionsOf v.entryId, u.version ≤ v.version ∧ (u.status = .published → u = v)
  subject : ∀ e ∈ db.entries, ∀ e' ∈ db.entries, e.registryType = e'.registryType →
    e.publicKey = e'.publicKey → e.subjectId = e'.subjectId
  drafts : ∀ d ∈ db.drafts, ∀ d' ∈ db.drafts, d.state = .published → d'.state = .published →
    d.registryType = d'.registryType → d.publicKey = d'.publicKey → d.subjectId = d'.subjectId
  hashed : ∀ v ∈ db.versions, hashProjection keccak_256 v.publicProjection = .ok v.contentHash

/-- Versions that are revoked before are revoked after. -/
def StaysRevoked (db db' : Db) : Prop :=
  ∀ v ∈ db.versions, v.status = .revoked → ∃ v' ∈ db'.versions, v'.id = v.id ∧ v'.status = .revoked

/-- The step is not a publication's update of a previous version that is revoked. -/
def NoRevokedSuperseded (s : State Nat Db Point) : Action Nat Given → Prop
  | .statement w _ =>
    match s.point w with
    | .publishing (.versionInserted work) =>
      ∀ v ∈ s.committed.versions, work.supersedes v = true → v.status ≠ .revoked
    | _ => True
  | _ => True

variable {keccak_256 : Bytes → Digest} {db db' : Db}

theorem Wellformed.history (h : Wellformed keccak_256 db) : History keccak_256 db where
  numbered entryId := by
    have hnumbers := h.numbered entryId
    rw [Db.numbersOf, List.length_map] at hnumbers
    exact hnumbers
  published v hv hpublished u hu := by
    obtain ⟨hmem, hentry⟩ := mem_versionsOf.mp hu
    have hle := h.highest v hv hpublished u hu
    refine ⟨hle, fun hother => h.version_unique hmem hv hentry ?_⟩
    have hge := h.highest u hmem hother v (mem_versionsOf.mpr ⟨hv, hentry.symm⟩)
    omega
  subject e he e' he' htype hkey := congrArg Entry.subjectId (h.keys e he e' he' htype hkey)
  drafts d hd d' hd' hstate hstate' htype hkey := by
    obtain ⟨e, he, htypeE, hkeyE, hsubject, -⟩ := h.decided d hd hstate
    obtain ⟨e', he', htypeE', hkeyE', hsubject', -⟩ := h.decided d' hd' hstate'
    have hsame := h.keys e he e' he' (by rw [htypeE, htypeE', htype]) (by rw [hkeyE, hkeyE', hkey])
    rw [← hsubject, ← hsubject', hsame]
  hashed := h.hashed

/-! ## Revoked versions -/

/-- From its update on, a publication relies on the previous version not being revoked. -/
def Point.SparesRevoked (db : Db) : Point → Prop
  | .publishing (.previousSuperseded work) =>
    ∀ v ∈ db.versions, work.supersedes v = true → v.status ≠ .revoked
  | .publishing (.draftDecided work) =>
    ∀ v ∈ db.versions, work.supersedes v = true → v.status ≠ .revoked
  | _ => True

theorem mem_workLocks_previous {work : Work} {v : EntryVersion}
    (h : work.supersedes v = true) :
    (Lock.version v.id, LockMode.exclusive) ∈ Publishing.workLocks work := by
  cases hprevious : work.previous with
  | none => simp [Work.supersedes, hprevious] at h
  | some p =>
    simp only [Work.supersedes, hprevious, Option.any_some, decide_eq_true_eq] at h
    simp [Publishing.workLocks, hprevious, h]

/-- No commit of another request revokes a version that is being superseded. -/
theorem spares_commits {chainId : Text} {point other : Point} {f : Db → Db}
    (hcommit : Commits other f) (hother : other.Relies keccak_256 db) {work : Work}
    (hlocks : (registry keccak_256 chainId).locks point = Publishing.workLocks work)
    (hcompatible : (registry keccak_256 chainId).Compatible point other)
    (h : ∀ v ∈ db.versions, work.supersedes v = true → v.status ≠ .revoked) :
    ∀ v ∈ (f db).versions, work.supersedes v = true → v.status ≠ .revoked := by
  intro v hv hselected
  cases hcommit with
  | draft _ => exact h v hv hselected
  | reject _ _ => exact h v hv hselected
  | batch _ _ => exact h v hv hselected
  | report _ => exact h v hv hselected
  | publish next =>
    obtain ⟨old, hold, rfl⟩ := mem_versions_apply.mp hv
    split
    · exact nofun
    · next hkept =>
      rw [if_neg hkept] at hselected
      rcases Table.mem_insertIfAbsent.mp hold with hold | ⟨rfl, -⟩
      · exact h old hold hselected
      · rw [Work.Fits.version hother]
        exact nofun
  | revoke now version =>
    obtain ⟨old, hold, rfl⟩ := List.mem_map.mp hv
    split
    · next hlocked =>
      rw [if_pos hlocked] at hselected
      have hmem := mem_workLocks_previous hselected
      rw [← hlocks, show (old.revoke now).id = version.id from of_decide_eq_true hlocked] at hmem
      exact absurd (List.mem_singleton.mpr rfl) (hcompatible.not_both hmem)
    · next hkept =>
      rw [if_neg hkept] at hselected
      exact h old hold hselected

/-- The layer above the invariant of the tables. -/
theorem spares_maintains (keccak_256 : Bytes → Digest) (chainId : Text) :
    (registry keccak_256 chainId).Maintains
      (fun s a => NoRevokedSuperseded s a ∧
        (registry keccak_256 chainId).Sound (Wellformed keccak_256) (Point.Relies keccak_256) s)
      (fun _ => True) Point.SparesRevoked where
  idle _ _ := trivial
  statement s w given q hs hok hnext := by
    have hpoint := hs.relies w
    have hallowed := hok.1
    simp only [NoRevokedSuperseded] at hallowed
    have hmoves := Point.moves_of_next hnext
    generalize s.point w = point at hmoves hpoint hallowed
    cases hmoves with
    | publishing ran =>
      cases ran with
      | previousSuperseded work => exact hallowed
      | draftDecided work => exact hpoint
      | _ => trivial
    | arrives => cases given.request <;> trivial
    | _ => trivial
  commit _ _ _ _ _ _ := trivial
  stable s w v f hs hok hne heffect := by
    have hcommit := commits_of_effect heffect
    have hv := hs.relies v
    have hcompatible := hs.compatible v w hne
    have hother := hok.2.relies w
    cases hcase : s.point v with
    | publishing point =>
      rw [hcase] at hv hcompatible
      cases point with
      | previousSuperseded work => exact spares_commits hcommit hother rfl hcompatible hv
      | draftDecided work => exact spares_commits hcommit hother rfl hcompatible hv
      | _ => trivial
    | _ => trivial
  outside s given db hs hmoved := by
    cases hmoved
    exact ⟨trivial, hs.relies⟩

theorem staysRevoked_refl (db : Db) : StaysRevoked db db :=
  fun v hv hstatus => ⟨v, hv, rfl, hstatus⟩

theorem StaysRevoked.trans {a b c : Db} (hab : StaysRevoked a b) (hbc : StaysRevoked b c) :
    StaysRevoked a c := by
  intro v hv hstatus
  obtain ⟨v', hv', hid, hstatus'⟩ := hab v hv hstatus
  obtain ⟨v'', hv'', hid', hstatus''⟩ := hbc v' hv' hstatus'
  exact ⟨v'', hv'', hid'.trans hid, hstatus''⟩

theorem staysRevoked_commits {point : Point} {f : Db → Db} (hcommit : Commits point f)
    (h : point.SparesRevoked db) : StaysRevoked db (f db) := by
  intro v hv hstatus
  cases hcommit with
  | draft _ => exact ⟨v, hv, rfl, hstatus⟩
  | reject _ _ => exact ⟨v, hv, rfl, hstatus⟩
  | batch _ _ => exact ⟨v, hv, rfl, hstatus⟩
  | report _ => exact ⟨v, hv, rfl, hstatus⟩
  | publish work =>
    refine ⟨v, mem_versions_apply.mpr ⟨v, Table.mem_insertIfAbsent_of_mem hv, ?_⟩, rfl, hstatus⟩
    exact if_neg fun hselected => h v hv hselected hstatus
  | revoke now version =>
    by_cases hselected : v.id = version.id
    · exact ⟨v.revoke now, List.mem_map.mpr ⟨v, hv, if_pos (decide_eq_true hselected)⟩, rfl, rfl⟩
    · exact ⟨v, List.mem_map.mpr ⟨v, hv, if_neg (by simpa using hselected)⟩, rfl, hstatus⟩

/-- In every run the tables show a history, and no entry is lost. In every run
in which no publication supersedes a revoked version, revoked versions stay
revoked. -/
theorem version_history (keccak_256 : Bytes → Digest) (chainId : Text) :
    (∀ s, (registrySystem keccak_256 chainId).Reachable s → History keccak_256 s.committed) ∧
    (∀ s t labels, (registrySystem keccak_256 chainId).Reachable s →
      (registrySystem keccak_256 chainId).Run s labels t →
      ∀ e ∈ s.committed.entries, e ∈ t.committed.entries) ∧
    ∀ s t labels, ((registrySystem keccak_256 chainId).restrict NoRevokedSuperseded).Reachable s →
      ((registrySystem keccak_256 chainId).restrict NoRevokedSuperseded).Run s labels t →
      StaysRevoked s.committed t.committed := by
  have hbase : ∀ db, StartsEmpty db → Wellformed keccak_256 db := fun _ => wellformed_of_startsEmpty
  refine ⟨fun s reached => (wellformed_of_reachable reached).history,
    fun s t labels _ run => (evolves_of_run run).entries, fun s t labels reached run => ?_⟩
  · have hrule := (registry_maintains keccak_256 chainId NoRevokedSuperseded).and
      (spares_maintains keccak_256 chainId)
    have hsound := hrule.reachable (fun db hdb => ⟨hbase db hdb, trivial⟩) reached
    refine hrule.relates run hsound staysRevoked_refl (fun _ _ _ => StaysRevoked.trans)
      (fun u w f hu _ heffect => ?_) fun u given db _ hmoved => ?_
    · exact staysRevoked_commits (commits_of_effect heffect) (hu.relies w).2
    · cases hmoved
      exact staysRevoked_refl u.committed

/-! ## A revoked version that is superseded -/

section Runs

/-- Stands for Keccak where no run depends on its values. -/
def zeroDigest : Bytes → Digest := fun _ => ⟨List.replicate 32 0, by decide⟩

def plainProjection (stableId : Text) : Projection where
  members := [
    (units "stableId", .str stableId),
    (units "status", .str (units "draft")),
    (units "version", .str (units "1")),
    (units "asOf", .str (units "2026-01-01T00:00:00Z")),
    (units "sourceAge", .null),
    (units "staleStatus", .str (units "fresh")),
    (units "limitations", .array 1 []),
    (units "legalEffect", .str (units "none")),
    (units "disclaimerCodes", .array 2 [])]
  unique := by
    refine .object _ _ (by simp only [List.map]; decide) fun member hmember => ?_
    simp only [List.mem_cons, List.not_mem_nil, or_false] at hmember
    rcases hmember with rfl | rfl | rfl | rfl | rfl | rfl | rfl | rfl | rfl
    case inr.inr.inr.inr.inl => exact .null
    case inr.inr.inr.inr.inr.inr.inl => exact .array _ _ nofun
    case inr.inr.inr.inr.inr.inr.inr.inr => exact .array _ _ nofun
    all_goals exact .str _

def plainDraft (id subjectId publicKey : Text) : Draft where
  id := id
  tenantId := units "tenant"
  registryType := .project
  subjectId := subjectId
  publicKey := publicKey
  projection := plainProjection subjectId
  sourceSnapshotHash := bytesToHex (List.replicate 32 0)
  policyVersion := units "1"
  schemaVersion := units "1"
  proposedBySubjectId := units "proposer"
  state := .pending
  decidedBySubjectId := none
  entryVersionId := none
  version := 1

def given (request : Request) (uuid : Uuid) : Given where
  request := request
  uuid := uuid
  publishedStatus := units "registered"
  lifecycleState := units "registered"
  health := { warnings := some 0, stale := false, unavailable := false }
  elapsed := 0

def draftScript (draft : Draft) : List Given := List.replicate 2 (given (.draft draft) [])

/-- A publication of `steps` statements whose version gets the id. -/
def publishScript (steps : Nat) (draftId versionId : Uuid) : List Given :=
  List.replicate steps (given (.publish {
    tenantId := units "tenant"
    draftId := draftId
    publisher := units "approver"
    expectedDraftVersion := 1 }) versionId)

def revokeScript (entryId : Uuid) : List Given :=
  List.replicate 4 (given (.revoke {
    tenantId := units "tenant"
    entryId := entryId
    expectedVersion := 1 }) [])

def testRegistry : Protocol Db Point Given Refusal Lock := registry zeroDigest (units "31337")

/-- The entry of a first publication has the id of its version. -/
def publishedAndRevoked : List (List Given) := [
  draftScript (plainDraft (units "draft 1") (units "project 1") (units "KEY-1")),
  publishScript 11 (units "draft 1") (units "version 1"),
  revokeScript (units "version 1")]

def publishedAgain : List (List Given) := [
  draftScript (plainDraft (units "draft 2") (units "project 1") (units "KEY-1")),
  publishScript 10 (units "draft 2") (units "version 2")]

/-- A record is published, revoked and published anew: its first version is no
longer revoked. -/
theorem stays_revoked_fails_republished :
    ∃ s t labels, (registrySystem zeroDigest (units "31337")).Reachable s ∧
      (registrySystem zeroDigest (units "31337")).Run s labels t ∧
      ¬ StaysRevoked s.committed t.committed := by
  have hrun : ((testRegistry.inTurn (fun _ _ => true) (Db.empty 0) publishedAndRevoked).any
      fun db => (db.versions.rows.any fun v => v.id = units "version 1" ∧ v.status = .revoked) &&
        (testRegistry.inTurn (fun _ _ => true) db publishedAgain).any fun db' =>
          db'.versions.rows.all fun v =>
            v.id ≠ units "version 1" ∨ v.status = .superseded) = true := by
    decide +kernel
  obtain ⟨db, hfirst, hrun⟩ := Option.any_eq_true _ _ |>.mp hrun
  rw [Bool.and_eq_true] at hrun
  obtain ⟨hrevoked, hrun⟩ := hrun
  obtain ⟨db', hsecond, hall⟩ := Option.any_eq_true _ _ |>.mp hrun
  have hstart : StartsEmpty (Db.empty 0) := ⟨0, rfl⟩
  have hok := Protocol.permits_true (P := testRegistry) (W := Nat) fun _ _ => true
  obtain ⟨labels, run⟩ := Protocol.run_inTurn StartsEmpty hok 0 hsecond
  have reached := Protocol.reachable_inTurn StartsEmpty hok 0 hstart hfirst
  refine ⟨_, _, labels, reached.of_restrict, run.of_restrict, fun hstays => ?_⟩
  obtain ⟨v, hv, hstatus⟩ := List.any_eq_true.mp hrevoked
  simp only [decide_eq_true_eq] at hstatus
  obtain ⟨v', hv', hid, hstatus'⟩ := hstays v hv hstatus.2
  have hsuperseded := List.all_eq_true.mp hall v' hv'
  simp [hid, hstatus.1, hstatus'] at hsuperseded

/-- Publications of other records and of records whose latest version stands. -/
def sparesRevoked (db : Db) : Point → Bool
  | .publishing (.versionInserted work) =>
    db.versions.rows.all fun v => !work.supersedes v || v.status ≠ .revoked
  | _ => true

theorem permits_sparesRevoked :
    testRegistry.Permits (W := Nat) sparesRevoked NoRevokedSuperseded := by
  intro db w p hallowed
  refine ⟨trivial, fun given => ?_⟩
  simp only [NoRevokedSuperseded, Protocol.only_point]
  split
  · intro v hv hselected
    have hspared := List.all_eq_true.mp hallowed v hv
    simpa [hselected] using hspared
  · trivial

def publishedElsewhere : List (List Given) := [
  draftScript (plainDraft (units "draft 3") (units "project 2") (units "KEY-2")),
  publishScript 11 (units "draft 3") (units "version 3")]

/-- A record is published and revoked, and then another record is published. -/
theorem version_history_elsewhere :
    ∃ s t : State Nat Db Point, History zeroDigest t.committed ∧
      (∃ v ∈ s.committed.versions, v.status = .revoked) ∧
      (∃ v ∈ t.committed.versions, v.status = .published) ∧
      StaysRevoked s.committed t.committed := by
  have hrun : ((testRegistry.inTurn sparesRevoked (Db.empty 0) publishedAndRevoked).any
      fun db => (db.versions.rows.any fun v => v.status = .revoked) &&
        (testRegistry.inTurn sparesRevoked db publishedElsewhere).any fun db' =>
          db'.versions.rows.any fun v => v.status = .published) = true := by
    decide +kernel
  obtain ⟨db, hfirst, hrun⟩ := Option.any_eq_true _ _ |>.mp hrun
  rw [Bool.and_eq_true] at hrun
  obtain ⟨hrevoked, hrun⟩ := hrun
  obtain ⟨db', hsecond, hpublished⟩ := Option.any_eq_true _ _ |>.mp hrun
  have hstart : StartsEmpty (Db.empty 0) := ⟨0, rfl⟩
  obtain ⟨labels, run⟩ := Protocol.run_inTurn StartsEmpty permits_sparesRevoked 0 hsecond
  have reached := Protocol.reachable_inTurn StartsEmpty permits_sparesRevoked 0 hstart hfirst
  obtain ⟨hhistory, -, hstays⟩ := version_history zeroDigest (units "31337")
  obtain ⟨v, hv, hrevoked⟩ := List.any_eq_true.mp hrevoked
  obtain ⟨u, hu, hpublished⟩ := List.any_eq_true.mp hpublished
  exact ⟨_, _, hhistory _ (reached.of_restrict.run run.of_restrict),
    ⟨v, hv, of_decide_eq_true hrevoked⟩, ⟨u, hu, of_decide_eq_true hpublished⟩,
    hstays _ _ labels reached run⟩

end Runs

end MpcRegistry.Registry
