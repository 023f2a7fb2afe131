import MpcRegistry.Registry.Requests

/-!
# What the tables of the registry keep

What a publication relies on between its statements, and what holds of the
tables after every commit: versions are numbered without a gap, the published
one is the last, a key has one entry and each content hash is that of its
projection.
-/
namespace MpcRegistry.Registry
open Library ReadCommitted Canonical

/-- The numbers of the versions of an entry, in the order they were committed. -/
def Db.numbersOf (db : Db) (entryId : Uuid) : List Nat := (db.versionsOf entryId).map (·.version)

section Numbering

/-- Id, entry and number of each version. -/
def Db.numbering (db : Db) : List (Uuid × Uuid × Nat) :=
  db.versions.rows.map fun v => (v.id, v.entryId, v.version)

theorem numbersOf_eq (db : Db) (entryId : Uuid) :
    db.numbersOf entryId = (db.numbering.filter (·.2.1 = entryId)).map (·.2.2) := by
  rw [Db.numbersOf, Db.versionsOf, Db.numbering, List.filter_map, List.map_map]
  rfl

theorem mem_numbering {db : Db} {v : EntryVersion} (h : v ∈ db.versions) :
    (v.id, v.entryId, v.version) ∈ db.numbering :=
  List.mem_map.mpr ⟨v, h, rfl⟩

theorem mem_numbersOf {db : Db} {v : EntryVersion} (h : v ∈ db.versions) :
    v.version ∈ db.numbersOf v.entryId :=
  List.mem_map.mpr ⟨v, mem_versionsOf.mpr ⟨h, rfl⟩, rfl⟩

/-- An update of versions that leaves id, entry and number alone. -/
theorem map_rows_update (t : Table EntryVersion.id) (selected : EntryVersion → Bool)
    (change : EntryVersion → EntryVersion) (keeps : ∀ v, (change v).id = v.id)
    (hentry : ∀ v, (change v).entryId = v.entryId)
    (hversion : ∀ v, (change v).version = v.version) :
    ((t.update selected change keeps).rows.map fun v => (v.id, v.entryId, v.version)) =
      t.rows.map fun v => (v.id, v.entryId, v.version) := by
  simp only [Table.update, List.map_map]
  refine List.map_congr_left fun v _ => ?_
  simp only [Function.comp_apply]
  split
  · rw [keeps, hentry, hversion]
  · rfl

theorem numbering_apply {work : Work} {db : Db} (fresh : ∀ v ∈ db.versions, v.id ≠ work.version.id) :
    (work.apply db).numbering =
      db.numbering ++ [(work.version.id, work.version.entryId, work.version.version)] := by
  have hupdate := map_rows_update (db.versions.insertIfAbsent work.version) work.supersedes
    (EntryVersion.supersede work.version.id) (fun _ => rfl) (fun _ => rfl) (fun _ => rfl)
  rw [Db.numbering, Work.apply, hupdate, Table.rows_insertIfAbsent_of_fresh fresh, List.map_append]
  rfl

theorem numbering_revokeVersion (now : Nat) (version : EntryVersion) (db : Db) :
    (db.revokeVersion now version).numbering = db.numbering :=
  map_rows_update db.versions (·.id = version.id) (EntryVersion.revoke now) (fun _ => rfl)
    (fun _ => rfl) (fun _ => rfl)

/-- Only a publication adds a version or an entry. -/
theorem commits_cases {point : Point} {f : Db → Db} (h : Commits point f) :
    (∃ work, point = .publishing (.draftDecided work) ∧ f = work.apply) ∨
      ∀ db, (f db).numbering = db.numbering ∧ (f db).entries = db.entries := by
  cases h with
  | publish work => exact .inl ⟨work, rfl, rfl⟩
  | revoke now version =>
    exact .inr fun db => ⟨numbering_revokeVersion now version db, rfl⟩
  | draft _ => exact .inr fun _ => ⟨rfl, rfl⟩
  | reject _ _ => exact .inr fun _ => ⟨rfl, rfl⟩
  | batch _ _ => exact .inr fun _ => ⟨rfl, rfl⟩
  | report _ => exact .inr fun _ => ⟨rfl, rfl⟩

end Numbering

/-! ## What a publication relies on -/

/-- The draft is in the table, with the columns that are set once. -/
def DraftKnown (db : Db) (draft : Draft) : Prop := ∃ d ∈ db.drafts, d.SameSubject draft

section Relies

variable (keccak_256 : Bytes → Digest)

structure Plan.Fits (db : Db) (plan : Plan) : Prop where
  known : DraftKnown db plan.draft
  hashed : hashProjection keccak_256 plan.projection = .ok plan.contentHash

structure Placement.Fits (db : Db) (placement : Placement) : Prop where
  plan : placement.toPlan.Fits keccak_256 db
  tenantId : placement.entry.tenantId = placement.draft.tenantId
  registryType : placement.entry.registryType = placement.draft.registryType
  subjectId : placement.entry.subjectId = placement.draft.subjectId
  publicKey : placement.entry.publicKey = placement.draft.publicKey
  existing : placement.fresh = false → placement.entry ∈ db.entries
  absent : placement.fresh = true → ∀ e ∈ db.entries, e.id ≠ placement.entry.id ∧
    ¬ (e.registryType = placement.entry.registryType ∧ e.publicKey = placement.entry.publicKey)

/-- The previous version is one of the entry's. -/
def ReadFrom (db : Db) (entryId : Uuid) (previous : Option EntryVersion) : Prop :=
  ∀ p, previous = some p → (p.id, entryId, p.version) ∈ db.numbering

/-- The new version has the next number, and nobody has its id. -/
structure Work.Fits (db : Db) (work : Work) : Prop where
  placement : work.toPlacement.Fits keccak_256 db
  version : work.version = work.toPlacement.nextVersion work.previous work.version.id
  previous : ReadFrom db work.entry.id work.previous
  number : work.version.version = (db.numbersOf work.entry.id).length + 1
  fresh : ∀ v ∈ db.versions, v.id ≠ work.version.id

def Publishing.Relies (db : Db) : Publishing → Prop
  | .begun _ _ => True
  | .draftLocked draft _ _ => DraftKnown db draft
  | .ledgerLocked draft _ _ => DraftKnown db draft
  | .inputsLocked draft _ _ => DraftKnown db draft
  | .hashed plan => plan.Fits keccak_256 db
  | .entryMissing plan => plan.Fits keccak_256 db
  | .entryReady placement => placement.Fits keccak_256 db
  | .previousRead placement previous =>
    placement.Fits keccak_256 db ∧ ReadFrom db placement.entry.id previous
  | .versionInserted work => work.Fits keccak_256 db
  | .previousSuperseded work => work.Fits keccak_256 db
  | .draftDecided work => work.Fits keccak_256 db

def Point.Relies (db : Db) : Point → Prop
  | .publishing point => point.Relies keccak_256 db
  | .drafting (.inserted draft) => draft.state = .pending
  | _ => True

/-! ## What the tables keep -/

structure Wellformed (db : Db) : Prop where
  numbered : ∀ entryId, db.numbersOf entryId = List.range' 1 (db.numbersOf entryId).length
  highest : ∀ v ∈ db.versions, v.status = .published →
    ∀ u ∈ db.versionsOf v.entryId, u.version ≤ v.version
  keys : ∀ e ∈ db.entries, ∀ e' ∈ db.entries, e.registryType = e'.registryType →
    e.publicKey = e'.publicKey → e = e'
  owned : ∀ v ∈ db.versions, ∃ e ∈ db.entries, e.id = v.entryId ∧ e.tenantId = v.tenantId
  hashed : ∀ v ∈ db.versions, hashProjection keccak_256 v.publicProjection = .ok v.contentHash
  visible : ∀ v ∈ db.versions, v.status ≠ .draft ∧ v.publishedAt ≠ none
  decided : ∀ d ∈ db.drafts, d.state = .published → ∃ e ∈ db.entries,
    e.registryType = d.registryType ∧ e.publicKey = d.publicKey ∧ e.subjectId = d.subjectId ∧
      ∃ v ∈ db.versions, v.entryId = e.id ∧ d.entryVersionId = some v.id

end Relies

variable {keccak_256 : Bytes → Digest} {db db' : Db}

theorem wellformed_empty (now : Nat) : Wellformed keccak_256 (Db.empty now) where
  numbered _ := rfl
  highest _ h := absurd h (Table.not_mem_empty _)
  keys _ h := absurd h (Table.not_mem_empty _)
  owned _ h := absurd h (Table.not_mem_empty _)
  hashed _ h := absurd h (Table.not_mem_empty _)
  visible _ h := absurd h (Table.not_mem_empty _)
  decided _ h := absurd h (Table.not_mem_empty _)

theorem wellformed_of_startsEmpty (h : StartsEmpty db) : Wellformed keccak_256 db := by
  obtain ⟨now, rfl⟩ := h
  exact wellformed_empty now

/-- Versions of one entry with one number are one version. -/
theorem Wellformed.version_unique (h : Wellformed keccak_256 db) {u v : EntryVersion}
    (hu : u ∈ db.versions) (hv : v ∈ db.versions) (hentry : u.entryId = v.entryId)
    (hversion : u.version = v.version) : u = v := by
  have hnodup : ((db.versionsOf v.entryId).map (·.version)).Nodup := by
    have hrange := h.numbered v.entryId
    rw [Db.numbersOf] at hrange
    rw [hrange]
    exact List.nodup_range'
  exact List.inj_on_of_nodup_map hnodup (mem_versionsOf.mpr ⟨hu, hentry⟩)
    (mem_versionsOf.mpr ⟨hv, rfl⟩) hversion

theorem Wellformed.version_le (h : Wellformed keccak_256 db) {v : EntryVersion}
    (hv : v ∈ db.versions) : 1 ≤ v.version ∧ v.version ≤ (db.numbersOf v.entryId).length := by
  have hmem := mem_numbersOf hv
  rw [h.numbered v.entryId, List.mem_range'_1] at hmem
  omega

theorem DraftKnown.evolves {draft : Draft} (h : DraftKnown db draft) (hevolves : Evolves db db') :
    DraftKnown db' draft := by
  obtain ⟨d, hd, hsame⟩ := h
  obtain ⟨d', hd', hsame'⟩ := hevolves.drafts d hd
  exact ⟨d', hd', hsame'.trans hsame⟩

theorem Plan.Fits.evolves {plan : Plan} (h : plan.Fits keccak_256 db) (hevolves : Evolves db db') :
    plan.Fits keccak_256 db' :=
  ⟨h.known.evolves hevolves, h.hashed⟩

theorem ReadFrom.evolves {entryId : Uuid} {previous : Option EntryVersion}
    (h : ReadFrom db entryId previous) (hevolves : Evolves db db') :
    ReadFrom db' entryId previous := by
  intro p hp
  obtain ⟨v, hv, heq⟩ := List.mem_map.mp (h p hp)
  simp only [Prod.mk.injEq] at heq
  obtain ⟨hid, hentry, hversion⟩ := heq
  obtain ⟨v', hv', hsame⟩ := hevolves.versions v hv
  have hmem := mem_numbering hv'
  rw [hsame] at hmem
  simp only [hid, hentry, hversion] at hmem
  exact hmem

/-- The placement keeps fitting where no new entry takes its id or its key. -/
theorem Placement.Fits.evolves {placement : Placement} (h : placement.Fits keccak_256 db)
    (hevolves : Evolves db db')
    (hnew : placement.fresh = true → ∀ e ∈ db'.entries, e ∈ db.entries ∨
      e.id ≠ placement.entry.id ∧ ¬ (e.registryType = placement.entry.registryType ∧
        e.publicKey = placement.entry.publicKey)) :
    placement.Fits keccak_256 db' :=
  { h with
    plan := h.plan.evolves hevolves
    existing := fun hfresh => hevolves.entries _ (h.existing hfresh)
    absent := fun hfresh e he => (hnew hfresh e he).elim (h.absent hfresh e) id }

/-- The work keeps fitting where in addition its entry gets no version and its
version's id stays free. -/
theorem Work.Fits.evolves {work : Work} (h : work.Fits keccak_256 db) (hevolves : Evolves db db')
    (hplacement : work.toPlacement.Fits keccak_256 db')
    (hnumbers : db'.numbersOf work.entry.id = db.numbersOf work.entry.id)
    (hfresh : ∀ v ∈ db'.versions, v.id ≠ work.version.id) : work.Fits keccak_256 db' where
  placement := hplacement
  version := h.version
  previous := h.previous.evolves hevolves
  number := hnumbers ▸ h.number
  fresh := hfresh

/-- A commit that adds neither a version nor an entry. -/
theorem Publishing.Relies.quiet {point : Publishing} (h : point.Relies keccak_256 db)
    (hevolves : Evolves db db') (hnumbering : db'.numbering = db.numbering)
    (hentries : db'.entries = db.entries) : point.Relies keccak_256 db' := by
  have hnumbers : ∀ entryId, db'.numbersOf entryId = db.numbersOf entryId := fun entryId => by
    rw [numbersOf_eq, numbersOf_eq, hnumbering]
  have hplacement : ∀ placement : Placement, placement.Fits keccak_256 db →
      placement.Fits keccak_256 db' := fun placement hfits =>
    hfits.evolves hevolves fun _ e he => .inl (hentries ▸ he)
  have hwork : ∀ work : Work, work.Fits keccak_256 db → work.Fits keccak_256 db' := by
    intro work hfits
    refine hfits.evolves hevolves (hplacement _ hfits.placement) (hnumbers _) fun v hv hid => ?_
    obtain ⟨old, hold, heq⟩ := List.mem_map.mp (hnumbering ▸ mem_numbering hv)
    exact hfits.fresh old hold ((congrArg Prod.fst heq).trans hid)
  cases point with
  | begun _ _ => trivial
  | draftLocked _ _ _ => exact DraftKnown.evolves h hevolves
  | ledgerLocked _ _ _ => exact DraftKnown.evolves h hevolves
  | inputsLocked _ _ _ => exact DraftKnown.evolves h hevolves
  | hashed _ => exact Plan.Fits.evolves h hevolves
  | entryMissing _ => exact Plan.Fits.evolves h hevolves
  | entryReady _ => exact hplacement _ h
  | previousRead _ _ => exact ⟨hplacement _ h.1, h.2.evolves hevolves⟩
  | versionInserted _ => exact hwork _ h
  | previousSuperseded _ => exact hwork _ h
  | draftDecided _ => exact hwork _ h

/-! ## Two publications -/

theorem mem_entries_apply {work : Work} {e : Entry} :
    e ∈ (work.apply db).entries → e ∈ db.entries ∨ work.fresh = true ∧ e = work.entry := by
  intro h
  simp only [Work.apply] at h
  split at h
  · next hfresh =>
    rcases Table.mem_insertIfAbsent.mp h with h | ⟨heq, -⟩
    · exact .inl h
    · exact .inr ⟨hfresh, heq⟩
  · exact .inl h

section Locks

open Publishing

theorem mem_locks_entry {placement : Placement} (hfresh : placement.fresh = true) :
    (Lock.entryId placement.entry.id, LockMode.exclusive) ∈ placementLocks placement ∧
      (Lock.entryKey placement.entry.registryType placement.entry.publicKey,
        LockMode.exclusive) ∈ placementLocks placement := by
  simp [placementLocks, hfresh]

theorem mem_locks_version (work : Work) :
    (Lock.versionId work.version.id, LockMode.exclusive) ∈ versionLocks work ∧
      (Lock.versionNumber work.version.entryId work.version.version, LockMode.exclusive) ∈
        versionLocks work := by
  simp [versionLocks]

theorem placementLocks_subset (work : Work) :
    placementLocks work.toPlacement ⊆ versionLocks work := by
  simp [versionLocks]

theorem versionLocks_subset (work : Work) : versionLocks work ⊆ workLocks work := by
  simp [workLocks]

end Locks

/-- A version that another publication commits is not in the way. -/
theorem Publishing.Relies.publish {chainId : Text} {point : Publishing}
    (h : point.Relies keccak_256 db) {work : Work} (hwork : work.Fits keccak_256 db)
    (hcompatible : (registry keccak_256 chainId).Compatible (.publishing point)
      (.publishing (.draftDecided work))) :
    point.Relies keccak_256 (work.apply db) := by
  have hevolves := evolves_of_commits (Commits.publish work) db
  have hnumbering := numbering_apply hwork.fresh
  have hplacement : ∀ placement : Placement, placement.Fits keccak_256 db →
      placementLocks placement ⊆ point.locks → placement.Fits keccak_256 (work.apply db) := by
    intro placement hfits hlocks
    refine hfits.evolves hevolves fun hfresh e he => ?_
    rcases mem_entries_apply he with he | ⟨hfresh', rfl⟩
    · exact .inl he
    · right
      obtain ⟨hid, hkey⟩ := mem_locks_entry hfresh
      obtain ⟨hid', hkey'⟩ := mem_locks_entry hfresh'
      have hsubset := List.Subset.trans (placementLocks_subset work) (versionLocks_subset work)
      constructor
      · intro heq
        rw [heq] at hid'
        exact hcompatible.not_both (hlocks hid) (hsubset hid')
      · rintro ⟨htype, hpublic⟩
        rw [htype, hpublic] at hkey'
        exact hcompatible.not_both (hlocks hkey) (hsubset hkey')
  have hworks : ∀ other : Work, other.Fits keccak_256 db → versionLocks other ⊆ point.locks →
      other.Fits keccak_256 (work.apply db) := by
    intro other hfits hlocks
    obtain ⟨hid, hnumber⟩ := mem_locks_version other
    obtain ⟨hid', hnumber'⟩ := mem_locks_version work
    refine hfits.evolves hevolves
      (hplacement _ hfits.placement (List.Subset.trans (placementLocks_subset other) hlocks)) ?_ ?_
    · have hentry : work.version.entryId ≠ other.entry.id := by
        intro heq
        have hother : other.version.entryId = other.entry.id := by rw [hfits.version]; rfl
        have hown : work.version.entryId = work.entry.id := by rw [hwork.version]; rfl
        have hsame : work.version.version = other.version.version := by
          rw [hwork.number, hfits.number, ← heq, hown]
        rw [heq, ← hother, hsame] at hnumber'
        exact hcompatible.not_both (hlocks hnumber) (versionLocks_subset work hnumber')
      rw [numbersOf_eq, numbersOf_eq, hnumbering, List.filter_append]
      simp [hentry]
    · intro v hv heq
      have hmem := mem_numbering hv
      rw [hnumbering, List.mem_append, List.mem_singleton] at hmem
      rcases hmem with hmem | hmem
      · obtain ⟨old, hold, hsame⟩ := List.mem_map.mp hmem
        exact hfits.fresh old hold ((congrArg Prod.fst hsame).trans heq)
      · have hsame := (congrArg Prod.fst hmem).symm.trans heq
        simp only at hsame
        rw [hsame] at hid'
        exact hcompatible.not_both (hlocks hid) (versionLocks_subset work hid')
  cases point with
  | begun _ _ => trivial
  | draftLocked _ _ _ => exact DraftKnown.evolves h hevolves
  | ledgerLocked _ _ _ => exact DraftKnown.evolves h hevolves
  | inputsLocked _ _ _ => exact DraftKnown.evolves h hevolves
  | hashed _ => exact Plan.Fits.evolves h hevolves
  | entryMissing _ => exact Plan.Fits.evolves h hevolves
  | entryReady _ => exact hplacement _ h fun _ hlock => hlock
  | previousRead _ _ => exact ⟨hplacement _ h.1 fun _ hlock => hlock, h.2.evolves hevolves⟩
  | versionInserted other => exact hworks other h fun _ hlock => hlock
  | previousSuperseded other => exact hworks other h (versionLocks_subset other)
  | draftDecided other => exact hworks other h (versionLocks_subset other)

/-! ## Every statement establishes what the next one relies on -/

/-- The free number is one past the versions there are, whatever was read as the latest. -/
theorem Wellformed.next_number (hdb : Wellformed keccak_256 db) {work : Work}
    (hversion : work.version = work.toPlacement.nextVersion work.previous work.version.id)
    (hprevious : ReadFrom db work.entry.id work.previous)
    (hnumber : ∀ v ∈ db.versions,
      ¬ (v.entryId = work.version.entryId ∧ v.version = work.version.version)) :
    work.version.version = (db.numbersOf work.entry.id).length + 1 := by
  have hnumbers := hdb.numbered work.entry.id
  have hentry : work.version.entryId = work.entry.id := by rw [hversion]; rfl
  have hvalue : work.version.version = (work.previous.elim 0 (·.version)) + 1 := by
    rw [hversion]; rfl
  have hfree : work.version.version ∉ db.numbersOf work.entry.id := by
    intro hmem
    obtain ⟨v, hv, heq⟩ := List.mem_map.mp hmem
    obtain ⟨hv, hown⟩ := mem_versionsOf.mp hv
    exact hnumber v hv ⟨hown.trans hentry.symm, heq⟩
  rw [hnumbers, List.mem_range'_1] at hfree
  cases hcase : work.previous with
  | none =>
    rw [hcase, Option.elim_none] at hvalue
    omega
  | some p =>
    obtain ⟨v, hv, heq⟩ := List.mem_map.mp (hprevious p hcase)
    simp only [Prod.mk.injEq] at heq
    obtain ⟨-, hown, hlatest⟩ := heq
    have hle := hdb.version_le hv
    rw [hown, hlatest] at hle
    rw [hcase, Option.elim_some] at hvalue
    omega

theorem Publishing.Moves.relies (hdb : Wellformed keccak_256 db) {point q : Publishing}
    (hmoves : point.Moves keccak_256 db q) (h : point.Relies keccak_256 db) :
    q.Relies keccak_256 db := by
  cases hmoves with
  | draftLocked request now draft found _ _ =>
    exact ⟨draft, (draftById_eq_some found).1, .refl draft⟩
  | ledgerLocked _ _ _ => exact h
  | inputsLocked _ _ _ => exact h
  | hashed plan hash => exact ⟨h, hash⟩
  | entryFound plan entry found subject =>
    obtain ⟨hentry, htenant, htype, hkey⟩ := entryFor_eq_some found
    exact ⟨h, htenant, htype, subject, hkey, fun _ => hentry, nofun⟩
  | entryMissing plan => exact h
  | entryInserted plan uuid entry row absent =>
    subst row
    exact ⟨h, rfl, rfl, rfl, rfl, nofun, fun _ => absent⟩
  | previousRead placement =>
    refine ⟨h, fun p hp => ?_⟩
    obtain ⟨hmem, hentry, -⟩ := mem_versionsDesc.mp (List.mem_of_mem_head? hp)
    exact hentry ▸ mem_numbering hmem
  | versionInserted work version number fresh =>
    exact ⟨h.1, version, h.2, hdb.next_number version h.2 number, fresh⟩
  | previousSuperseded work => exact h
  | draftDecided work => exact h

/-- A draft starts as pending. -/
theorem Drafting.next_relies {point q : Drafting} (hnext : point.next db = .ok q) :
    Point.Relies keccak_256 db (.drafting q) := by
  cases point with
  | begun draft =>
    obtain ⟨hpending, hnext⟩ := Outcome.guard_ok.mp hnext
    obtain ⟨-, hnext⟩ := Outcome.guard_ok.mp hnext
    obtain ⟨-, hnext⟩ := Outcome.guard_ok.mp hnext
    cases hnext
    exact not_not.mp hpending
  | inserted draft => cases hnext
  | rejectBegun tenantId draftId decider expected =>
    simp only [next] at hnext
    split at hnext
    · cases hnext
    · obtain ⟨_, -, hnext⟩ := Outcome.bind_ok.mp hnext
      obtain ⟨-, hnext⟩ := Outcome.guard_ok.mp hnext
      cases hnext
      trivial
  | rejectLocked draft decider =>
    cases hnext
    trivial
  | rejected draft decider => cases hnext

theorem Point.Moves.relies {chainId : Text} (hdb : Wellformed keccak_256 db) {point q : Point}
    {given : Given} (hmoves : point.Moves keccak_256 chainId db given q)
    (h : point.Relies keccak_256 db) : q.Relies keccak_256 db := by
  cases hmoves with
  | arrives => cases given.request <;> trivial
  | drafting ran => exact Drafting.next_relies ran
  | publishing ran => exact ran.relies hdb h
  | revoking _ => trivial
  | batching _ => trivial
  | reporting _ => trivial

/-! ## Every commit keeps the tables well formed -/

section Publish

variable {work : Work}

theorem mem_versions_apply {v : EntryVersion} :
    v ∈ (work.apply db).versions ↔ ∃ old ∈ db.versions.insertIfAbsent work.version,
      (if work.supersedes old then old.supersede work.version.id else old) = v :=
  List.mem_map

theorem mem_drafts_apply {d : Draft} :
    d ∈ (work.apply db).drafts ↔ ∃ old ∈ db.drafts,
      (if decide (old.id = work.draft.id) then
        old.decide .published work.publisher (some work.version.id) else old) = d :=
  List.mem_map

/-- A version after the commit: the new one, or an older one that is superseded or as it was. -/
theorem Work.Fits.version_cases (h : work.Fits keccak_256 db) {v : EntryVersion}
    (hv : v ∈ (work.apply db).versions) :
    v = work.version ∨ ∃ old ∈ db.versions,
      (work.supersedes old = true ∧ v = old.supersede work.version.id) ∨
        (work.supersedes old = false ∧ v = old) := by
  obtain ⟨old, hold, rfl⟩ := mem_versions_apply.mp hv
  rcases Table.mem_insertIfAbsent.mp hold with hold | ⟨rfl, -⟩
  · right
    refine ⟨old, hold, ?_⟩
    cases hselected : work.supersedes old with
    | true => exact .inl ⟨rfl, if_pos rfl⟩
    | false => exact .inr ⟨rfl, if_neg (by simp)⟩
  · left
    have hother : work.supersedes work.version = false := by
      cases hprevious : work.previous with
      | none => simp [Work.supersedes, hprevious]
      | some p =>
        obtain ⟨u, hu, heq⟩ := List.mem_map.mp (h.previous p hprevious)
        simp only [Prod.mk.injEq] at heq
        have hne := h.fresh u hu
        simpa [Work.supersedes, hprevious, ← heq.1] using hne
    exact if_neg (by simp [hother])

theorem Work.Fits.numbersOf_apply (h : work.Fits keccak_256 db) (entryId : Uuid) :
    (work.apply db).numbersOf entryId =
      db.numbersOf entryId ++ if work.entry.id = entryId then [work.version.version] else [] := by
  have hentry : work.version.entryId = work.entry.id := by rw [h.version]; rfl
  rw [numbersOf_eq, numbersOf_eq, numbering_apply h.fresh, List.filter_append, List.map_append,
    hentry]
  by_cases heq : work.entry.id = entryId <;> simp [heq]

/-- The row that is superseded is the last one of the entry. -/
theorem Work.Fits.superseded (h : work.Fits keccak_256 db) (hdb : Wellformed keccak_256 db)
    {v : EntryVersion} (hv : v ∈ db.versions) (hentry : v.entryId = work.entry.id)
    (hlast : v.version = (db.numbersOf work.entry.id).length) : work.supersedes v = true := by
  have hnumber := h.number
  have hle := hdb.version_le hv
  rw [h.version] at hnumber
  cases hprevious : work.previous with
  | none =>
    simp only [hprevious, Placement.nextVersion, Option.elim_none] at hnumber
    omega
  | some p =>
    obtain ⟨u, hu, heq⟩ := List.mem_map.mp (h.previous p hprevious)
    simp only [Prod.mk.injEq] at heq
    obtain ⟨hid, huentry, huversion⟩ := heq
    simp only [hprevious, Placement.nextVersion, Option.elim_some] at hnumber
    have hsame := hdb.version_unique hu hv (huentry.trans hentry.symm) (by omega)
    simp [Work.supersedes, hprevious, ← hid, hsame]

theorem Work.Fits.entry_mem (h : work.Fits keccak_256 db) :
    work.entry ∈ (work.apply db).entries ∧ work.version.entryId = work.entry.id := by
  constructor
  · simp only [Work.apply]
    split
    · next hfresh =>
      exact Table.mem_insertIfAbsent.mpr
        (.inr ⟨rfl, fun e he => (h.placement.absent hfresh e he).1⟩)
    · next hfresh => exact h.placement.existing (by simpa using hfresh)
  · rw [h.version]
    rfl

theorem Work.Fits.version_mem (h : work.Fits keccak_256 db) :
    work.version ∈ (work.apply db).versions := by
  have hinsert := Table.mem_insertIfAbsent.mpr
    (.inr ⟨rfl, h.fresh⟩ : work.version ∈ db.versions ∨ _)
  obtain ⟨v, hv, hsame⟩ := exists_updated (EntryVersion.supersede work.version.id)
    (fun _ => rfl) (fun a b => a.id = b.id) (fun _ => rfl) (fun _ => rfl) hinsert
  rcases h.version_cases hv with rfl | ⟨old, hold, ⟨-, rfl⟩ | ⟨-, rfl⟩⟩
  · exact hv
  · exact absurd hsame (h.fresh old hold)
  · exact absurd hsame (h.fresh v hold)

theorem Wellformed.numbered_publish (hdb : Wellformed keccak_256 db)
    (h : work.Fits keccak_256 db) (entryId : Uuid) :
    (work.apply db).numbersOf entryId =
      List.range' 1 ((work.apply db).numbersOf entryId).length := by
  rw [h.numbersOf_apply]
  by_cases heq : work.entry.id = entryId
  · subst heq
    rw [if_pos rfl, List.length_append, List.length_singleton, List.range'_1_concat,
      ← hdb.numbered, h.number, Nat.add_comm]
  · rw [if_neg heq, List.append_nil]
    exact hdb.numbered entryId

/-- A published version of the entry would have been the last one, which is superseded. -/
theorem Wellformed.other_entry (hdb : Wellformed keccak_256 db) (h : work.Fits keccak_256 db)
    {v : EntryVersion} (hv : v ∈ db.versions) (hpublished : v.status = .published)
    (hkept : work.supersedes v = false) : work.entry.id ≠ v.entryId := by
  intro heq
  have hbound := hdb.version_le hv
  have hmem : (db.numbersOf v.entryId).length ∈ db.numbersOf v.entryId := by
    rw [hdb.numbered v.entryId, List.mem_range'_1]
    simp only [List.length_range']
    omega
  obtain ⟨last, hlast, hversion⟩ := List.mem_map.mp hmem
  have hle := hdb.highest v hv hpublished last hlast
  have hsuperseded := h.superseded hdb hv heq.symm (by rw [heq]; omega)
  simp [hkept] at hsuperseded

theorem Wellformed.highest_publish (hdb : Wellformed keccak_256 db) (h : work.Fits keccak_256 db)
    {v u : EntryVersion} (hv : v ∈ (work.apply db).versions) (hpublished : v.status = .published)
    (hu : u ∈ (work.apply db).versionsOf v.entryId) : u.version ≤ v.version := by
  have hmem : u.version ∈ (work.apply db).numbersOf v.entryId := List.mem_map_of_mem hu
  rw [h.numbersOf_apply, List.mem_append] at hmem
  rcases h.version_cases hv with rfl | ⟨old, hold, ⟨-, rfl⟩ | ⟨hkept, rfl⟩⟩
  · have hnumber := h.number
    rw [h.entry_mem.2, if_pos rfl, hdb.numbered, List.mem_range'_1, List.mem_singleton] at hmem
    omega
  · simp [EntryVersion.supersede] at hpublished
  · rw [if_neg (hdb.other_entry h hold hpublished hkept)] at hmem
    obtain ⟨w, hw, heq⟩ := List.mem_map.mp (hmem.resolve_right (by simp))
    exact heq ▸ hdb.highest v hold hpublished w hw

theorem Wellformed.keys_publish (hdb : Wellformed keccak_256 db) (h : work.Fits keccak_256 db)
    {e e' : Entry} (he : e ∈ (work.apply db).entries) (he' : e' ∈ (work.apply db).entries)
    (htype : e.registryType = e'.registryType) (hkey : e.publicKey = e'.publicKey) : e = e' := by
  rcases mem_entries_apply he with he | ⟨hfresh, rfl⟩
  · rcases mem_entries_apply he' with he' | ⟨hfresh, rfl⟩
    · exact hdb.keys e he e' he' htype hkey
    · exact absurd ⟨htype, hkey⟩ (h.placement.absent hfresh e he).2
  · rcases mem_entries_apply he' with he' | ⟨-, rfl⟩
    · exact absurd ⟨htype.symm, hkey.symm⟩ (h.placement.absent hfresh e' he').2
    · rfl

/-- What a row's set-once columns decide is decided for all rows when it is for the new one. -/
theorem Work.Fits.forall_versions (h : work.Fits keccak_256 db) {p : EntryVersion → Prop}
    (hsame : ∀ a b : EntryVersion, a.SameRecord b → p b → p a) (hnew : p work.version)
    (hold : ∀ v ∈ db.versions, p v) : ∀ v ∈ (work.apply db).versions, p v := by
  intro v hv
  rcases h.version_cases hv with rfl | ⟨old, hmem, ⟨-, rfl⟩ | ⟨-, rfl⟩⟩
  · exact hnew
  · exact hsame _ old rfl (hold old hmem)
  · exact hold v hmem

theorem Wellformed.decided_publish (hdb : Wellformed keccak_256 db) (h : work.Fits keccak_256 db)
    {d : Draft} (hd : d ∈ (work.apply db).drafts) (hstate : d.state = .published) :
    ∃ e ∈ (work.apply db).entries, e.registryType = d.registryType ∧ e.publicKey = d.publicKey ∧
      e.subjectId = d.subjectId ∧ ∃ v ∈ (work.apply db).versions, v.entryId = e.id ∧
        d.entryVersionId = some v.id := by
  have hevolves := evolves_of_commits (Commits.publish work) db
  have hplacement := h.placement
  obtain ⟨old, hold, rfl⟩ := mem_drafts_apply.mp hd
  by_cases hdecided : old.id = work.draft.id
  · rw [if_pos (decide_eq_true hdecided)]
    obtain ⟨known, hknown, hid, -, htype, hsubject, hkey⟩ := hplacement.plan.known
    obtain rfl := Table.eq_of_key hknown hold (hid.trans hdecided.symm)
    exact ⟨work.entry, h.entry_mem.1, hplacement.registryType.trans htype.symm,
      hplacement.publicKey.trans hkey.symm, hplacement.subjectId.trans hsubject.symm,
      work.version, h.version_mem, h.entry_mem.2, rfl⟩
  · rw [if_neg (by simpa using hdecided)] at hstate ⊢
    obtain ⟨e, he, htype, hkey, hsubject, v, hv, hentry, hversion⟩ := hdb.decided old hold hstate
    obtain ⟨v', hv', hsame⟩ := hevolves.versions v hv
    rw [EntryVersion.SameRecord] at hsame
    refine ⟨e, hevolves.entries e he, htype, hkey, hsubject, v', hv', ?_, ?_⟩
    · rw [hsame]
      exact hentry
    · rw [hsame]
      exact hversion

theorem Wellformed.publish (hdb : Wellformed keccak_256 db) (h : work.Fits keccak_256 db) :
    Wellformed keccak_256 (work.apply db) where
  numbered := hdb.numbered_publish h
  highest v hv hpublished u hu := hdb.highest_publish h hv hpublished hu
  keys e he e' he' htype hkey := hdb.keys_publish h he he' htype hkey
  owned := by
    refine h.forall_versions (fun a b hsame hb => ?_) ?_ fun v hv => ?_
    · rw [EntryVersion.SameRecord] at hsame
      rw [hsame]
      exact hb
    · exact ⟨work.entry, h.entry_mem.1, h.entry_mem.2.symm,
        by rw [h.version]; exact h.placement.tenantId⟩
    · obtain ⟨e, he, howner⟩ := hdb.owned v hv
      exact ⟨e, (evolves_of_commits (Commits.publish work) db).entries e he, howner⟩
  hashed := by
    refine h.forall_versions (fun a b hsame hb => ?_) ?_ hdb.hashed
    · rw [EntryVersion.SameRecord] at hsame
      rw [hsame]
      exact hb
    · rw [h.version]
      exact (hashProjection_stored keccak_256 work.projection).trans h.placement.plan.hashed
  visible v hv := by
    rcases h.version_cases hv with rfl | ⟨old, hold, ⟨-, rfl⟩ | ⟨-, rfl⟩⟩
    · rw [h.version]
      exact ⟨EntryStatus.noConfusion, Option.some_ne_none _⟩
    · exact ⟨EntryStatus.noConfusion, (hdb.visible old hold).2⟩
    · exact hdb.visible v hold
  decided d hd hstate := hdb.decided_publish h hd hstate

end Publish

/-- Tables with the same entries and versions, and no draft newly published. -/
theorem Wellformed.of_drafts (hdb : Wellformed keccak_256 db) (hentries : db'.entries = db.entries)
    (hversions : db'.versions = db.versions)
    (hdrafts : ∀ d ∈ db'.drafts, d.state = .published → d ∈ db.drafts) :
    Wellformed keccak_256 db' := by
  have hof : ∀ entryId, db'.versionsOf entryId = db.versionsOf entryId := fun entryId => by
    rw [Db.versionsOf, Db.versionsOf, hversions]
  refine ⟨fun entryId => ?_, ?_, ?_, ?_, ?_, ?_, ?_⟩
  · rw [Db.numbersOf, hof]
    exact hdb.numbered entryId
  · intro v hv hpublished u hu
    rw [hof] at hu
    exact hdb.highest v (hversions ▸ hv) hpublished u hu
  · rw [hentries]
    exact hdb.keys
  · rw [hentries, hversions]
    exact hdb.owned
  · rw [hversions]
    exact hdb.hashed
  · rw [hversions]
    exact hdb.visible
  · rw [hentries, hversions]
    exact fun d hd hstate => hdb.decided d (hdrafts d hd hstate) hstate

theorem revokeVersion_cases {now : Nat} {version v : EntryVersion}
    (hv : v ∈ (db.revokeVersion now version).versions) :
    ∃ old ∈ db.versions, v = old.revoke now ∨ v = old := by
  obtain ⟨old, hold, rfl⟩ := List.mem_map.mp hv
  refine ⟨old, hold, ?_⟩
  split
  · exact .inl rfl
  · exact .inr rfl

/-- A revocation changes the status of one version. -/
theorem Wellformed.revoke (hdb : Wellformed keccak_256 db) (now : Nat) (version : EntryVersion) :
    Wellformed keccak_256 (db.revokeVersion now version) := by
  have hevolves := evolves_of_commits (Commits.revoke now version) db
  have hnumbers : ∀ entryId, (db.revokeVersion now version).numbersOf entryId =
      db.numbersOf entryId := fun entryId => by
    rw [numbersOf_eq, numbersOf_eq, numbering_revokeVersion]
  refine ⟨fun entryId => ?_, fun v hv hpublished u hu => ?_, hdb.keys, fun v hv => ?_,
    fun v hv => ?_, fun v hv => ?_, fun d hd hstate => ?_⟩
  · rw [hnumbers]
    exact hdb.numbered entryId
  · obtain ⟨old, hold, rfl | rfl⟩ := revokeVersion_cases hv
    · simp [EntryVersion.revoke] at hpublished
    · have hmem : u.version ∈ db.numbersOf v.entryId := hnumbers _ ▸ List.mem_map_of_mem hu
      obtain ⟨w, hw, heq⟩ := List.mem_map.mp hmem
      exact heq ▸ hdb.highest v hold hpublished w hw
  · obtain ⟨old, hold, rfl | rfl⟩ := revokeVersion_cases hv
    · exact hdb.owned old hold
    · exact hdb.owned v hold
  · obtain ⟨old, hold, rfl | rfl⟩ := revokeVersion_cases hv
    · exact hdb.hashed old hold
    · exact hdb.hashed v hold
  · obtain ⟨old, hold, rfl | rfl⟩ := revokeVersion_cases hv
    · exact ⟨nofun, (hdb.visible old hold).2⟩
    · exact hdb.visible v hold
  · obtain ⟨e, he, htype, hkey, hsubject, v, hv, hentry, hversion⟩ := hdb.decided d hd hstate
    obtain ⟨v', hv', hsame⟩ := hevolves.versions v hv
    rw [EntryVersion.SameRecord] at hsame
    exact ⟨e, he, htype, hkey, hsubject, v', hv', by rw [hsame]; exact hentry,
      by rw [hsame]; exact hversion⟩

theorem Wellformed.commits (hdb : Wellformed keccak_256 db) {point : Point} {f : Db → Db}
    (hpoint : point.Relies keccak_256 db) (hcommit : Commits point f) :
    Wellformed keccak_256 (f db) := by
  cases hcommit with
  | draft draft =>
    refine hdb.of_drafts rfl rfl fun d hd hstate => ?_
    rcases Table.mem_insertIfAbsent.mp hd with h | ⟨rfl, -⟩
    · exact h
    · rw [show d.state = .pending from hpoint] at hstate
      cases hstate
  | reject draft decider =>
    refine hdb.of_drafts rfl rfl fun d hd hstate => ?_
    obtain ⟨old, hold, rfl⟩ := List.mem_map.mp hd
    split at hstate
    · simp [Draft.decide] at hstate
    · next hother =>
      rw [if_neg hother]
      exact hold
  | publish work => exact hdb.publish hpoint
  | revoke now version => exact hdb.revoke now version
  | batch row done => exact hdb.of_drafts rfl rfl fun d hd _ => hd
  | report row => exact hdb.of_drafts rfl rfl fun d hd _ => hd

/-- The tables and what every publication under way relies on hold through every run. -/
theorem registry_maintains (keccak_256 : Bytes → Digest) (chainId : Text)
    (ok : State Nat Db Point → Action Nat Given → Prop) :
    (registry keccak_256 chainId).Maintains ok (Wellformed keccak_256)
      (Point.Relies keccak_256) where
  idle _ _ := trivial
  statement s w given q hs _ hnext :=
    (Point.moves_of_next hnext).relies hs.committed (hs.relies w)
  commit s w f hs _ heffect := hs.committed.commits (hs.relies w) (commits_of_effect heffect)
  stable s w v f hs _ hne heffect := by
    have hcommit := commits_of_effect heffect
    have hevolves := evolves_of_commits hcommit s.committed
    have hv := hs.relies v
    have hcompatible := hs.compatible v w hne
    cases hpoint : s.point v with
    | publishing point =>
      rw [hpoint] at hv hcompatible
      rcases commits_cases hcommit with ⟨work, hwork, rfl⟩ | hquiet
      · have hfits := hs.relies w
        rw [hwork] at hfits hcompatible
        exact Publishing.Relies.publish hv hfits hcompatible
      · exact Publishing.Relies.quiet hv hevolves (hquiet _).1 (hquiet _).2
    | drafting point =>
      rw [hpoint] at hv
      cases point with
      | inserted draft => exact hv
      | begun draft => trivial
      | rejectBegun tenantId draftId decider expected => trivial
      | rejectLocked draft decider => trivial
      | rejected draft decider => trivial
    | idle => trivial
    | revoking point => trivial
    | batching point => trivial
    | reporting point => trivial
  outside s given db hs hmoved := by
    cases hmoved
    refine ⟨hs.committed.of_drafts rfl rfl fun d hd _ => hd, fun w => ?_⟩
    have hw := hs.relies w
    have hevolves := evolves_elapsed s.committed given.elapsed
    cases hpoint : s.point w with
    | publishing point =>
      rw [hpoint] at hw
      exact Publishing.Relies.quiet hw hevolves rfl rfl
    | drafting point =>
      rw [hpoint] at hw
      cases point with
      | inserted draft => exact hw
      | begun draft => trivial
      | rejectBegun tenantId draftId decider expected => trivial
      | rejectLocked draft decider => trivial
      | rejected draft decider => trivial
    | idle => trivial
    | revoking point => trivial
    | batching point => trivial
    | reporting point => trivial

theorem wellformed_of_reachable {chainId : Text} {s : State Nat Db Point}
    (reached : (registrySystem keccak_256 chainId).Reachable s) :
    Wellformed keccak_256 s.committed := by
  have hrule := registry_maintains keccak_256 chainId fun _ _ => True
  exact (hrule.reachable (fun _ => wellformed_of_startsEmpty)
    (reached.restrict fun _ _ => trivial)).committed

end MpcRegistry.Registry
