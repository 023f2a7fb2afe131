import MpcRegistry.Registry.BatchIntegrity

/-!
# Rebuilding an anchored leaf from its record

A leaf hash is made of the status the version had when its batch was built. A
revocation or a superseding publication that follows changes the status and
leaves the leaf, which can then no longer be rebuilt from the record. In runs
without such a change every leaf can.
-/
namespace MpcRegistry.Registry
open Library ReadCommitted Canonical

/-- The versions an anchor-batch request has read for its leaves. -/
def Point.readVersions : Point → List Uuid
  | .batching (.built _ batch) => batch.leaves.map (·.entryVersionId)
  | .batching (.inserting _ done rest) => (done ++ rest).map (·.entryVersionId)
  | _ => []

/-- The rows whose status the commit changes. -/
def Point.restates : Point → EntryVersion → Bool
  | .publishing (.draftDecided work), v => work.supersedes v
  | .revoking (.revoked _ version), v => v.id = version.id
  | _, _ => false

/-- The version is a leaf, or a request under way has read it to make it one. -/
def Leafed (s : State Nat Db Point) (versionId : Uuid) : Prop :=
  (∃ leaf ∈ s.committed.leaves, leaf.entryVersionId = versionId) ∨
    ∃ worker, versionId ∈ (s.point worker).readVersions

/-- The step is not the commit of a new status for such a version. -/
def NoLeafRestated (s : State Nat Db Point) : Action Nat Given → Prop
  | .commit worker => ∀ v ∈ s.committed.versions, (s.point worker).restates v = true →
      ¬ Leafed s v.id
  | _ => True

section Steps

variable {keccak_256 : Bytes → Digest} {db : Db}

/-- A version whose status a commit does not change stays as it is. -/
theorem mem_versions_of_commits {point : Point} {f : Db → Db} (h : Commits point f)
    {v : EntryVersion} (hv : v ∈ db.versions) (hkept : point.restates v = false) :
    v ∈ (f db).versions := by
  cases h with
  | draft _ => exact hv
  | reject _ _ => exact hv
  | batch _ _ => exact hv
  | report _ => exact hv
  | publish work =>
    have hnot : ¬ work.supersedes v = true := Bool.eq_false_iff.mp hkept
    exact mem_versions_apply.mpr ⟨v, Table.mem_insertIfAbsent_of_mem hv, if_neg hnot⟩
  | revoke now version =>
    have hnot : ¬ decide (v.id = version.id) = true := Bool.eq_false_iff.mp hkept
    exact List.mem_map.mpr ⟨v, hv, if_neg hnot⟩

theorem LeafOf.commits {point : Point} {f : Db → Db} (hcommit : Commits point f)
    {versionId : Uuid} {leafHash : Text} (h : LeafOf keccak_256 db versionId leafHash)
    (hkept : ∀ v ∈ db.versions, v.id = versionId → point.restates v = false) :
    LeafOf keccak_256 (f db) versionId leafHash := by
  obtain ⟨entry, hentry, v, hv, hof, hid, hhash⟩ := h
  exact ⟨entry, (evolves_of_commits hcommit db).entries entry hentry, v,
    mem_versions_of_commits hcommit hv (hkept v hv hid), hof, hid, hhash⟩

/-- The leaves a request is to insert, or has inserted. -/
def Point.Reproduces (keccak_256 : Bytes → Digest) (db : Db) : Point → Prop
  | .batching (.built _ batch) =>
    ∀ leaf ∈ batch.leaves, LeafOf keccak_256 db leaf.entryVersionId leaf.leafHash
  | .batching (.inserting _ done rest) =>
    ∀ leaf ∈ done ++ rest, LeafOf keccak_256 db leaf.entryVersionId leaf.leafHash
  | _ => True

/-- Every stored leaf is that of its record as it now is. -/
def LeavesReproduce (keccak_256 : Bytes → Digest) (db : Db) : Prop :=
  ∀ leaf ∈ db.leaves, LeafOf keccak_256 db leaf.entryVersionId leaf.leafHash

theorem Point.Moves.reproduces {chainId : Text} {given : Given} {p q : Point}
    (hmoves : p.Moves keccak_256 chainId db given q) (h : p.Reproduces keccak_256 db) :
    q.Reproduces keccak_256 db := by
  cases hmoves with
  | arrives => cases given.request <;> trivial
  | batching ran =>
    cases Batching.moves_of_next ran with
    | locked _ => trivial
    | built _ _ _ hbuild => exact fun leaf hleaf => leafOf_of_build hbuild hleaf
    | rowInserted _ _ _ _ =>
      intro leaf hleaf
      obtain ⟨-, own, hown, hversion, hhash⟩ := mem_leafRows hleaf
      rw [hversion, hhash]
      exact h own hown
    | leafInserted row done rest leaf _ _ =>
      intro other hother
      exact h other (by simpa using hother)
  | _ => trivial

theorem Point.Reproduces.of_leafOf {db' : Db} {point : Point}
    (h : point.Reproduces keccak_256 db)
    (hkeeps : ∀ versionId ∈ point.readVersions, ∀ leafHash,
      LeafOf keccak_256 db versionId leafHash → LeafOf keccak_256 db' versionId leafHash) :
    point.Reproduces keccak_256 db' := by
  cases point with
  | batching point =>
    cases point with
    | built tenantId batch =>
      exact fun leaf hleaf => hkeeps _ (List.mem_map_of_mem hleaf) _ (h leaf hleaf)
    | inserting row done rest =>
      exact fun leaf hleaf => hkeeps _ (List.mem_map_of_mem hleaf) _ (h leaf hleaf)
    | begun _ => trivial
    | locked _ => trivial
  | _ => trivial

/-- A leaf after a commit was a leaf, or is one the request inserted. -/
theorem mem_leaves_of_commits {point : Point} {f : Db → Db} (h : Commits point f)
    {leaf : AnchorBatchLeaf} (hleaf : leaf ∈ (f db).leaves) :
    leaf ∈ db.leaves ∨ ∃ row done, point = .batching (.inserting row done []) ∧ leaf ∈ done := by
  rcases commits_batch_cases h with ⟨row, done, hpoint, rfl⟩ | hquiet
  · rcases Table.mem_of_mem_foldl_insertIfAbsent hleaf with hleaf | hleaf
    · exact .inl hleaf
    · exact .inr ⟨row, done, hpoint, hleaf⟩
  · exact .inl ((hquiet db).2 ▸ hleaf)

/-- With no status changed under a leaf, every leaf goes on being that of its record. -/
theorem reproduces_maintains (keccak_256 : Bytes → Digest) (chainId : Text) :
    (registry keccak_256 chainId).Maintains (fun s a => NoLeafRestated s a)
      (LeavesReproduce keccak_256) (Point.Reproduces keccak_256) where
  idle _ _ := trivial
  statement s w given q hs _ hnext := (Point.moves_of_next hnext).reproduces (hs.relies w)
  commit s w f hs hok heffect leaf hleaf := by
    have hcommit := commits_of_effect heffect
    rcases mem_leaves_of_commits hcommit hleaf with hstored | ⟨row, done, hpoint, hinserted⟩
    · refine (hs.committed leaf hstored).commits hcommit fun v hv hid => ?_
      rw [Bool.eq_false_iff]
      exact fun hrestates => hok v hv hrestates (.inl ⟨leaf, hstored, hid.symm⟩)
    · have hw := hs.relies w
      rw [hpoint] at hw hcommit
      exact (hw leaf (List.mem_append_left _ hinserted)).commits hcommit fun _ _ _ => rfl
  stable s w v f hs hok hne heffect := by
    have hcommit := commits_of_effect heffect
    refine (hs.relies v).of_leafOf fun versionId hread leafHash hleaf => ?_
    refine hleaf.commits hcommit fun version hversion hid => ?_
    rw [Bool.eq_false_iff]
    exact fun hrestates => hok version hversion hrestates (.inr ⟨v, hid ▸ hread⟩)
  outside s given db hs hmoved := by
    cases hmoved
    exact ⟨hs.committed, fun w => (hs.relies w).of_leafOf fun _ _ _ hleaf => hleaf⟩

end Steps

/-- In every run in which no commit changes the status of a version that is a
leaf, or that an anchor-batch request under way has read, every stored leaf hash
is that of its record. -/
theorem leaf_reproduction (keccak_256 : Bytes → Digest) (chainId : Text)
    {s : State Nat Db Point}
    (reached : ((registrySystem keccak_256 chainId).restrict NoLeafRestated).Reachable s) :
    ∀ leaf ∈ s.committed.leaves,
      LeafOf keccak_256 s.committed leaf.entryVersionId leaf.leafHash := by
  have hsound := (reproduces_maintains keccak_256 chainId).reachable (fun db hdb => ?_) reached
  · exact hsound.committed
  · obtain ⟨now, rfl⟩ := hdb
    exact fun leaf hleaf => absurd hleaf (Table.not_mem_empty _)

/-- In every run a leaf is at least that of its record with another status. -/
theorem leaf_of_some_status (keccak_256 : Bytes → Digest) (chainId : Text)
    {s : State Nat Db Point} (reached : (registrySystem keccak_256 chainId).Reachable s) :
    ∀ leaf ∈ s.committed.leaves, ∃ entry ∈ s.committed.entries, ∃ v ∈ s.committed.versions,
      v.entryId = entry.id ∧ v.id = leaf.entryVersionId ∧ ∃ status,
        hashLeaf keccak_256 (toRegistryLeaf (publishedRow entry { v with status })) =
          .ok leaf.leafHash := by
  intro leaf hleaf
  obtain ⟨s₀, labels, hstart, run⟩ := reached
  have hanchored := anchored_of_run keccak_256 chainId hstart run
  obtain ⟨row, hrow, hid⟩ := hanchored.owned leaf hleaf
  obtain ⟨-, -, -, u, -, ⟨_, _, _, _, after⟩, -, hread⟩ := (hanchored.built row hrow).spec
  obtain ⟨entry, hentry, v, hv, hof, hversion, hhash⟩ := hread leaf
    (List.mem_filter.mpr ⟨hleaf, decide_eq_true hid.symm⟩)
  have hevolves := evolves_of_run after
  obtain ⟨v', hv', hsame⟩ := hevolves.versions v hv
  rw [EntryVersion.SameRecord] at hsame
  refine ⟨entry, hevolves.entries entry hentry, v', hv', ?_, ?_, v.status, ?_⟩
  · rw [hsame]
    exact hof
  · rw [hsame]
    exact hversion
  · rw [hsame]
    exact hhash

section Runs

/-- The first record is published, anchored and revoked. -/
def anchoredAndRevoked : List (List Given) := [
  draftScript (plainDraft (units "draft 1") (units "project 1") (units "KEY-1")),
  publishScript 11 (units "draft 1") (units "version 1"),
  batchScript 5 (units "batch 10"),
  revokeScript (units "version 1")]

/-- The hash of each version's leaf, from the tables. -/
def Db.rebuiltLeaf (keccak_256 : Bytes → Digest) (db : Db) (versionId : Uuid) :
    List (Except Canonical.Thrown Text) :=
  (db.versions.rows.filter (·.id = versionId)).flatMap fun v =>
    (db.entries.rows.filter (·.id = v.entryId)).map fun entry =>
      hashLeaf keccak_256 (toRegistryLeaf (publishedRow entry v))

theorem mem_rebuiltLeaf {keccak_256 : Bytes → Digest} {db : Db} {versionId : Uuid}
    {leafHash : Text} :
    LeafOf keccak_256 db versionId leafHash ↔
      .ok leafHash ∈ db.rebuiltLeaf keccak_256 versionId := by
  simp only [LeafOf, Db.rebuiltLeaf, List.mem_flatMap, List.mem_map, List.mem_filter,
    decide_eq_true_eq, Table.mem_rows]
  constructor
  · rintro ⟨entry, hentry, v, hv, hof, hid, hhash⟩
    exact ⟨v, ⟨hv, hid⟩, entry, ⟨hentry, hof.symm⟩, hhash⟩
  · rintro ⟨v, ⟨hv, hid⟩, entry, ⟨hentry, hof⟩, hhash⟩
    exact ⟨entry, hentry, v, hv, hof.symm, hid, hhash⟩

/-- A published version is anchored and then revoked: its leaf is no longer that
of its record. -/
theorem leaf_reproduction_fails_revoked :
    ∃ s, (registrySystem runKeccak (units "31337")).Reachable s ∧
      ∃ leaf ∈ s.committed.leaves,
        ¬ LeafOf runKeccak s.committed leaf.entryVersionId leaf.leafHash := by
  have hrun : ((runRegistry.inTurn (fun _ _ => true) (Db.empty 0) anchoredAndRevoked).any
      fun db => db.leaves.rows.any fun leaf =>
        .ok leaf.leafHash ∉ db.rebuiltLeaf runKeccak leaf.entryVersionId) = true := by
    decide +kernel
  obtain ⟨db, hdb, hleaf⟩ := Option.any_eq_true _ _ |>.mp hrun
  obtain ⟨leaf, hmem, hnot⟩ := List.any_eq_true.mp hleaf
  have hok := Protocol.permits_true (P := runRegistry) (W := Nat) fun _ _ => true
  have reached := Protocol.reachable_inTurn StartsEmpty hok 0 ⟨0, rfl⟩ hdb
  exact ⟨_, reached.of_restrict, leaf, hmem, fun h => of_decide_eq_true hnot (mem_rebuiltLeaf.mp h)⟩

/-- Only versions that are no leaf get a new status. -/
def sparesLeaves (db : Db) (p : Point) : Bool :=
  db.versions.rows.all fun v => !p.restates v || !db.anchored v.id

theorem permits_sparesLeaves : runRegistry.Permits (W := Nat) sparesLeaves NoLeafRestated := by
  intro db w p hallowed
  refine ⟨fun v hv hrestates hleafed => ?_, fun _ => trivial⟩
  rw [Protocol.only_point] at hrestates
  have hspared := List.all_eq_true.mp hallowed v hv
  rw [hrestates, Bool.not_true, Bool.false_or, Bool.not_eq_true'] at hspared
  rcases hleafed with ⟨leaf, hleaf, hid⟩ | ⟨worker, hread⟩
  · exact List.any_eq_false.mp hspared leaf hleaf (decide_eq_true hid)
  · by_cases hworker : worker = w
    · subst hworker
      rw [Protocol.only_point] at hread
      -- a request that changes a status has read no leaves
      cases p with
      | batching point => cases hrestates
      | _ => cases hread
    · rw [Protocol.only_point_of_ne hworker] at hread
      cases hread

/-- The first record is published and anchored, the second published and revoked. -/
def revokedBeside : List (List Given) := [
  draftScript (plainDraft (units "draft 1") (units "project 1") (units "KEY-1")),
  publishScript 11 (units "draft 1") (units "version 1"),
  batchScript 5 (units "batch 10"),
  draftScript (plainDraft (units "draft 10") (units "project 10") (units "KEY-10")),
  publishScript 11 (units "draft 10") (units "version 10"),
  revokeScript (units "version 10")]

/-- One record stays anchored as published while another is revoked. -/
theorem leaf_reproduction_beside :
    ∃ s : State Nat Db Point, (∃ v ∈ s.committed.versions, v.status = .revoked) ∧
      ∃ leaf ∈ s.committed.leaves,
        LeafOf runKeccak s.committed leaf.entryVersionId leaf.leafHash := by
  have hrun : ((runRegistry.inTurn sparesLeaves (Db.empty 0) revokedBeside).any fun db =>
      (db.versions.rows.any fun v => v.status = .revoked) &&
        db.leaves.rows.any fun leaf => leaf.entryVersionId = units "version 1") = true := by
    decide +kernel
  obtain ⟨db, hdb, hdone⟩ := Option.any_eq_true _ _ |>.mp hrun
  rw [Bool.and_eq_true] at hdone
  obtain ⟨v, hv, hrevoked⟩ := List.any_eq_true.mp hdone.1
  obtain ⟨leaf, hleaf, -⟩ := List.any_eq_true.mp hdone.2
  have reached := Protocol.reachable_inTurn StartsEmpty permits_sparesLeaves 0 ⟨0, rfl⟩ hdb
  exact ⟨_, ⟨v, hv, of_decide_eq_true hrevoked⟩, leaf, hleaf,
    leaf_reproduction runKeccak (units "31337") reached leaf hleaf⟩

end Runs

end MpcRegistry.Registry
