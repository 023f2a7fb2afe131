import MpcRegistry.Canonical.ProofCompleteness
import MpcRegistry.Registry.VersionHistory

/-!
# The integrity of anchor batches

Each stored batch is one that `buildAnchorBatch` returned at some state of the
run to a request that held the tenant's advisory lock: its leaves, its count and
its root. Leaves are never changed, so every proof served later is made of them.
-/
namespace MpcRegistry.Registry
open Library ReadCommitted Canonical

/-! ## What a build returns -/

section Build

variable {keccak_256 : Bytes → Digest} {db : Db} {tenantId uuid : Uuid} {batch : BuiltBatch}

/-- The leaf is the hash of a version of these tables, with its entry. -/
def LeafOf (keccak_256 : Bytes → Digest) (db : Db) (versionId : Uuid) (leafHash : Text) : Prop :=
  ∃ entry ∈ db.entries, ∃ v ∈ db.versions, v.entryId = entry.id ∧ v.id = versionId ∧
    hashLeaf keccak_256 (toRegistryLeaf (publishedRow entry v)) = .ok leafHash

theorem mem_unanchored {row : PublishedVersionRow} (h : row ∈ db.unanchored tenantId) :
    ∃ entry ∈ db.entries, ∃ v ∈ db.versions, v.entryId = entry.id ∧ v.tenantId = tenantId ∧
      row = publishedRow entry v ∧ v.status ≠ .draft ∧ db.anchored v.id = false := by
  simp only [Db.unanchored, List.mem_flatMap, List.mem_insertionSort, List.mem_filter,
    List.mem_map, Bool.and_eq_true, decide_eq_true_eq, Bool.not_eq_true'] at h
  obtain ⟨v, ⟨hv, ⟨htenant, hdraft⟩, hanchored⟩, entry, ⟨hentry, hid, -⟩, rfl⟩ := h
  exact ⟨entry, hentry, v, hv, hid.symm, htenant, rfl, hdraft, hanchored⟩

theorem buildAnchorBatch_ok (h : buildAnchorBatch keccak_256 db tenantId uuid = .ok batch) :
    db.unanchored tenantId ≠ [] ∧
      (db.unanchored tenantId).mapM (buildLeaf keccak_256) = .ok batch.leaves ∧
      batch.recordCount = batch.leaves.length ∧
      ∃ tree, buildMerkleTree keccak_256 (batch.leaves.map (·.leafHash)) = .ok tree ∧
        tree.root = batch.root := by
  obtain ⟨hcount, h⟩ := Outcome.guard_ok.mp h
  refine ⟨fun hnil => hcount (List.length_eq_zero_iff.mpr hnil), ?_⟩
  split at h
  · cases h
  · next built hbuilt =>
    cases h
    obtain ⟨leaves, hleaves, hbuilt⟩ := Outcome.bind_ok.mp hbuilt
    obtain ⟨tree, htree, hbuilt⟩ := Outcome.bind_ok.mp hbuilt
    obtain ⟨batchId, -, hbuilt⟩ := Outcome.bind_ok.mp hbuilt
    obtain ⟨manifestHash, -, hbuilt⟩ := Outcome.bind_ok.mp hbuilt
    cases hbuilt
    exact ⟨hleaves, rfl, tree, htree, rfl⟩

/-- Every leaf is that of a version the build has read. -/
theorem leafOf_of_build (h : buildAnchorBatch keccak_256 db tenantId uuid = .ok batch)
    {leaf : BuiltLeaf} (hleaf : leaf ∈ batch.leaves) :
    LeafOf keccak_256 db leaf.entryVersionId leaf.leafHash := by
  obtain ⟨-, hleaves, -⟩ := buildAnchorBatch_ok h
  have hfrom := (Outcome.exists_iff_of_mapM_ok (p := fun row => buildLeaf keccak_256 row = .ok leaf)
    (q := fun other => other = leaf) hleaves fun row other hother => by
      rw [hother, Except.ok.injEq]).mp ⟨leaf, hleaf, rfl⟩
  obtain ⟨row, hrow, hbuilt⟩ := hfrom
  obtain ⟨leafHash, hhash, hbuilt⟩ := Outcome.bind_ok.mp hbuilt
  cases hbuilt
  obtain ⟨entry, hentry, v, hv, hid, -, rfl, -⟩ := mem_unanchored hrow
  exact ⟨entry, hentry, v, hv, hid, rfl, hhash⟩

theorem map_leafHash_leafRows (batch : BuiltBatch) (id : Uuid) :
    (batch.leafRows id).map (·.leafHash) = batch.leaves.map (·.leafHash) := by
  refine List.ext_getElem? fun index => ?_
  simp [BuiltBatch.leafRows, Function.comp_def]

theorem mem_leafRows {id : Uuid} {row : AnchorBatchLeaf} (h : row ∈ batch.leafRows id) :
    row.batchId = id ∧ ∃ leaf ∈ batch.leaves,
      row.entryVersionId = leaf.entryVersionId ∧ row.leafHash = leaf.leafHash := by
  obtain ⟨index, hindex, rfl⟩ := List.mem_mapIdx.mp h
  exact ⟨rfl, batch.leaves[index], List.getElem_mem hindex, rfl, rfl⟩

end Build

/-! ## What an anchor-batch request relies on -/

/-- Everything a statement of the route can do, with what it found. -/
inductive Batching.Moves (keccak_256 : Bytes → Digest) (db : Db) : Batching → Batching → Prop where
  | locked (tenantId : Uuid) : Moves keccak_256 db (begun tenantId) (locked tenantId)
  | built (tenantId uuid : Uuid) (batch : BuiltBatch)
      (ran : buildAnchorBatch keccak_256 db tenantId uuid = .ok batch) :
      Moves keccak_256 db (locked tenantId) (built tenantId batch)
  | rowInserted (tenantId uuid : Uuid) (batch : BuiltBatch)
      (fresh : ∀ other ∈ db.batches, other.id ≠ uuid) :
      Moves keccak_256 db (built tenantId batch)
        (inserting (batch.row uuid tenantId) [] (batch.leafRows uuid))
  | leafInserted (row : AnchorBatch) (done rest : List AnchorBatchLeaf) (leaf : AnchorBatchLeaf)
      (stored : ∀ other ∈ db.leaves, other.entryVersionId ≠ leaf.entryVersionId)
      (own : ∀ other ∈ done, other.entryVersionId ≠ leaf.entryVersionId) :
      Moves keccak_256 db (inserting row done (leaf :: rest)) (inserting row (done ++ [leaf]) rest)

theorem Batching.moves_of_next {keccak_256 : Bytes → Digest} {db : Db} {point q : Batching}
    {uuid : Uuid} (h : point.next keccak_256 db uuid = .ok q) : Moves keccak_256 db point q := by
  cases point with
  | begun tenantId =>
    cases h
    exact .locked tenantId
  | locked tenantId =>
    obtain ⟨batch, hbatch, h⟩ := Outcome.bind_ok.mp h
    cases h
    exact .built tenantId uuid batch hbatch
  | built tenantId batch =>
    obtain ⟨hfresh, h⟩ := Outcome.guard_ok.mp h
    cases h
    exact .rowInserted tenantId uuid batch fun other hother heq =>
      hfresh ⟨other, hother, .inl heq⟩
  | inserting row done rest =>
    cases rest with
    | nil => cases h
    | cons leaf rest =>
      obtain ⟨hfresh, h⟩ := Outcome.guard_ok.mp h
      cases h
      exact .leafInserted row done rest leaf
        (fun other hother heq =>
          hfresh ⟨other, List.mem_append_left _ hother, .inl heq⟩)
        fun other hother heq => hfresh ⟨other, List.mem_append_right _ hother, .inl heq⟩

/-- The version is in the table. -/
def VersionKnown (db : Db) (versionId : Uuid) : Prop := ∃ v ∈ db.versions, v.id = versionId

section Relies

variable (keccak_256 : Bytes → Digest) (past : State Nat Db Point → Prop)

/-- A state of the run in which a request of the tenant held the advisory lock
and its build returned this batch. -/
def Built (tenantId : Uuid) (batch : BuiltBatch) : Prop :=
  ∃ u worker uuid, past u ∧ u.point worker = .batching (.locked tenantId) ∧
    buildAnchorBatch keccak_256 u.committed tenantId uuid = .ok batch

/-- The rows are those of a batch that was built. -/
def BuiltRows (row : AnchorBatch) (leaves : List AnchorBatchLeaf) : Prop :=
  ∃ batch, Built keccak_256 past row.tenantId batch ∧ row = batch.row row.id row.tenantId ∧
    leaves = batch.leafRows row.id

/-- The batch row and the leaves inserted so far are new to the tables. -/
structure Batching.Pending (db : Db) (row : AnchorBatch) (done rest : List AnchorBatchLeaf) :
    Prop where
  built : BuiltRows keccak_256 past row (done ++ rest)
  known : ∀ leaf ∈ done ++ rest, VersionKnown db leaf.entryVersionId
  newRow : ∀ other ∈ db.batches, other.id ≠ row.id
  newLeaves : ∀ other ∈ db.leaves, ∀ leaf ∈ done, other.entryVersionId ≠ leaf.entryVersionId
  apart : (done.map (·.entryVersionId)).Nodup

def Point.Anchors (db : Db) : Point → Prop
  | .batching (.built tenantId batch) => Built keccak_256 past tenantId batch ∧
      ∀ leaf ∈ batch.leaves, VersionKnown db leaf.entryVersionId
  | .batching (.inserting row done rest) => Batching.Pending keccak_256 past db row done rest
  | _ => True

/-- What the tables show of anchor batches, with where the batches come from. -/
structure Anchored (db : Db) : Prop where
  built : ∀ row ∈ db.batches, BuiltRows keccak_256 past row (db.leavesOf row.id)
  owned : ∀ leaf ∈ db.leaves, ∃ row ∈ db.batches, row.id = leaf.batchId
  known : ∀ leaf ∈ db.leaves, VersionKnown db leaf.entryVersionId

end Relies

section Steps

variable {keccak_256 : Bytes → Digest} {past more : State Nat Db Point → Prop} {db db' : Db}

theorem VersionKnown.evolves {versionId : Uuid} (h : VersionKnown db versionId)
    (hevolves : Evolves db db') : VersionKnown db' versionId := by
  obtain ⟨v, hv, rfl⟩ := h
  obtain ⟨v', hv', hsame⟩ := hevolves.versions v hv
  rw [EntryVersion.SameRecord] at hsame
  exact ⟨v', hv', by rw [hsame]⟩

theorem BuiltRows.mono (hmore : ∀ u, past u → more u) {row : AnchorBatch}
    {leaves : List AnchorBatchLeaf} (h : BuiltRows keccak_256 past row leaves) :
    BuiltRows keccak_256 more row leaves := by
  obtain ⟨batch, ⟨u, worker, uuid, hu, hpoint, hbuild⟩, hrow, hleaves⟩ := h
  exact ⟨batch, ⟨u, worker, uuid, hmore u hu, hpoint, hbuild⟩, hrow, hleaves⟩

theorem Anchored.mono (hmore : ∀ u, past u → more u) (h : Anchored keccak_256 past db) :
    Anchored keccak_256 more db :=
  { h with built := fun row hrow => (h.built row hrow).mono hmore }

theorem Point.Anchors.mono (hmore : ∀ u, past u → more u) {point : Point}
    (h : point.Anchors keccak_256 past db) : point.Anchors keccak_256 more db := by
  cases point with
  | batching point =>
    cases point with
    | built tenantId batch =>
      obtain ⟨⟨u, worker, uuid, hu, hpoint, hbuild⟩, hknown⟩ := h
      exact ⟨⟨u, worker, uuid, hmore u hu, hpoint, hbuild⟩, hknown⟩
    | inserting row done rest => exact { (id h : Batching.Pending ..) with built := h.built.mono hmore }
    | begun _ => trivial
    | locked _ => trivial
  | _ => trivial

theorem versionKnown_of_leafOf {versionId : Uuid} {leafHash : Text}
    (h : LeafOf keccak_256 db versionId leafHash) : VersionKnown db versionId := by
  obtain ⟨_, _, v, hv, _, hid, _⟩ := h
  exact ⟨v, hv, hid⟩

/-- What one statement keeps, for the request that runs it. -/
theorem Point.Moves.anchors {chainId : Text} {given : Given} {s : State Nat Db Point} {worker : Nat}
    {q : Point} (hmoves : (s.point worker).Moves keccak_256 chainId s.committed given q)
    (hpast : past s) (h : (s.point worker).Anchors keccak_256 past s.committed) :
    q.Anchors keccak_256 past s.committed := by
  generalize hpoint : s.point worker = point at hmoves h
  cases hmoves with
  | arrives => cases given.request <;> trivial
  | drafting _ => trivial
  | publishing _ => trivial
  | revoking _ => trivial
  | reporting _ => trivial
  | @batching p q ran =>
    cases Batching.moves_of_next ran with
    | locked _ => trivial
    | built tenantId uuid batch hbuild =>
      refine ⟨⟨s, worker, uuid, hpast, hpoint, hbuild⟩, fun leaf hleaf => ?_⟩
      exact versionKnown_of_leafOf (leafOf_of_build hbuild hleaf)
    | rowInserted tenantId uuid batch fresh =>
      obtain ⟨hbuilt, hknown⟩ := h
      refine ⟨⟨batch, hbuilt, rfl, rfl⟩, fun leaf hleaf => ?_, fresh, nofun, List.nodup_nil⟩
      obtain ⟨-, own, hown, hversion, -⟩ := mem_leafRows hleaf
      rw [hversion]
      exact hknown own hown
    | leafInserted row done rest leaf stored own =>
      have hsplit : (done ++ [leaf]) ++ rest = done ++ leaf :: rest := by simp
      have hpending : Batching.Pending keccak_256 past s.committed row done (leaf :: rest) := h
      refine ⟨hsplit ▸ hpending.built, hsplit ▸ hpending.known, hpending.newRow, ?_, ?_⟩
      · intro other hother inserted hinserted
        rcases List.mem_append.mp hinserted with hdone | hlast
        · exact hpending.newLeaves other hother inserted hdone
        · rw [List.mem_singleton.mp hlast]
          exact stored other hother
      · rw [List.map_append, List.nodup_append]
        refine ⟨hpending.apart, List.nodup_singleton _, fun a ha b hb => ?_⟩
        obtain ⟨other, hother, rfl⟩ := List.mem_map.mp ha
        rw [List.map_singleton, List.mem_singleton] at hb
        exact hb ▸ own other hother

/-- All leaves of a request's rows are in its batch. -/
theorem Batching.Pending.batchId {row : AnchorBatch} {done rest : List AnchorBatchLeaf}
    (h : Batching.Pending keccak_256 past db row done rest) {leaf : AnchorBatchLeaf}
    (hleaf : leaf ∈ done) : leaf.batchId = row.id := by
  obtain ⟨batch, -, -, hleaves⟩ := h.built
  exact (mem_leafRows (hleaves ▸ List.mem_append_left rest hleaf)).1

/-- The tables after a batch is committed. -/
def Db.insertBatch (row : AnchorBatch) (leaves : List AnchorBatchLeaf) (db : Db) : Db :=
  { db with
    batches := db.batches.insertIfAbsent row
    leaves := leaves.foldl (fun leaves leaf => leaves.insertIfAbsent leaf) db.leaves }

section Commit

variable {row : AnchorBatch} {done : List AnchorBatchLeaf}

theorem Batching.Pending.leaves_insertBatch
    (h : Batching.Pending keccak_256 past db row done []) :
    (db.insertBatch row done).leaves.rows = db.leaves.rows ++ done :=
  Table.rows_foldl_insertIfAbsent h.newLeaves h.apart

/-- The new batch has the new leaves, every other one the leaves it had. -/
theorem Batching.Pending.leavesOf_insertBatch
    (h : Batching.Pending keccak_256 past db row done []) (id : Uuid) :
    (db.insertBatch row done).leavesOf id =
      db.leavesOf id ++ if row.id = id then done else [] := by
  rw [Db.leavesOf, h.leaves_insertBatch, List.filter_append, Db.leavesOf]
  congr 1
  split
  · next heq =>
    exact List.filter_eq_self.mpr fun leaf hleaf => decide_eq_true ((h.batchId hleaf).trans heq)
  · next hne =>
    refine List.filter_eq_nil_iff.mpr fun leaf hleaf heq => hne ?_
    exact (h.batchId hleaf).symm.trans (of_decide_eq_true heq)

theorem Anchored.insertBatch (hdb : Anchored keccak_256 past db)
    (h : Batching.Pending keccak_256 past db row done []) :
    Anchored keccak_256 past (db.insertBatch row done) := by
  have hevolves := evolves_of_commits (Commits.batch row done) db
  have hnone : db.leavesOf row.id = [] := by
    refine List.filter_eq_nil_iff.mpr fun leaf hleaf heq => ?_
    obtain ⟨owner, howner, hid⟩ := hdb.owned leaf hleaf
    exact h.newRow owner howner (hid.trans (of_decide_eq_true heq))
  have hrow : row ∈ (db.insertBatch row done).batches :=
    Table.mem_insertIfAbsent.mpr (.inr ⟨rfl, h.newRow⟩)
  have hcases : ∀ leaf ∈ (db.insertBatch row done).leaves, leaf ∈ db.leaves ∨ leaf ∈ done := by
    intro leaf hleaf
    rw [← Table.mem_rows, h.leaves_insertBatch] at hleaf
    exact List.mem_append.mp hleaf
  refine ⟨fun other hother => ?_, fun leaf hleaf => ?_, fun leaf hleaf => ?_⟩
  · rw [h.leavesOf_insertBatch]
    rcases Table.mem_insertIfAbsent.mp hother with hother | ⟨rfl, -⟩
    · rw [if_neg fun heq => h.newRow other hother heq.symm, List.append_nil]
      exact hdb.built other hother
    · have hbuilt := h.built
      rw [List.append_nil] at hbuilt
      rw [if_pos rfl, hnone, List.nil_append]
      exact hbuilt
  · rcases hcases leaf hleaf with hleaf | hleaf
    · obtain ⟨owner, howner, hid⟩ := hdb.owned leaf hleaf
      exact ⟨owner, hevolves.batches owner howner, hid⟩
    · exact ⟨row, hrow, (h.batchId hleaf).symm⟩
  · rcases hcases leaf hleaf with hleaf | hleaf
    · exact (hdb.known leaf hleaf).evolves hevolves
    · exact (h.known leaf (List.mem_append_left _ hleaf)).evolves hevolves

end Commit

/-- A commit that inserts neither a batch nor a leaf. -/
theorem Anchored.quiet (hdb : Anchored keccak_256 past db) (hevolves : Evolves db db')
    (hbatches : db'.batches = db.batches) (hleaves : db'.leaves = db.leaves) :
    Anchored keccak_256 past db' where
  built row hrow := by
    rw [Db.leavesOf, hleaves]
    exact hdb.built row (hbatches ▸ hrow)
  owned leaf hleaf := by
    rw [hbatches]
    exact hdb.owned leaf (hleaves ▸ hleaf)
  known leaf hleaf := (hdb.known leaf (hleaves ▸ hleaf)).evolves hevolves

/-- Only an anchor-batch request inserts batches and leaves. -/
theorem commits_batch_cases {point : Point} {f : Db → Db} (h : Commits point f) :
    (∃ row done, point = .batching (.inserting row done []) ∧ f = Db.insertBatch row done) ∨
      ∀ db, (f db).batches = db.batches ∧ (f db).leaves = db.leaves := by
  cases h with
  | batch row done => exact .inl ⟨row, done, rfl, rfl⟩
  | draft _ => exact .inr fun _ => ⟨rfl, rfl⟩
  | reject _ _ => exact .inr fun _ => ⟨rfl, rfl⟩
  | publish _ => exact .inr fun _ => ⟨rfl, rfl⟩
  | revoke _ _ => exact .inr fun _ => ⟨rfl, rfl⟩
  | report _ => exact .inr fun _ => ⟨rfl, rfl⟩

/-- A request goes on relying where no other takes its batch's id or one of its versions. -/
theorem Point.Anchors.evolves {point : Point} (h : point.Anchors keccak_256 past db)
    (hevolves : Evolves db db')
    (hrow : ∀ row done rest, point = .batching (.inserting row done rest) →
      ∀ other ∈ db'.batches, other ∈ db.batches ∨ other.id ≠ row.id)
    (hleaves : ∀ row done rest, point = .batching (.inserting row done rest) →
      ∀ other ∈ db'.leaves, other ∈ db.leaves ∨
        ∀ leaf ∈ done, other.entryVersionId ≠ leaf.entryVersionId) :
    point.Anchors keccak_256 past db' := by
  cases point with
  | batching point =>
    cases point with
    | built tenantId batch =>
      exact ⟨h.1, fun leaf hleaf => (h.2 leaf hleaf).evolves hevolves⟩
    | inserting row done rest =>
      have hpending : Batching.Pending keccak_256 past db row done rest := h
      refine ⟨hpending.built, fun leaf hleaf => (hpending.known leaf hleaf).evolves hevolves,
        fun other hother => ?_, fun other hother => ?_, hpending.apart⟩
      · exact (hrow row done rest rfl other hother).elim (hpending.newRow other) id
      · exact (hleaves row done rest rfl other hother).elim (hpending.newLeaves other) id
    | begun _ => trivial
    | locked _ => trivial
  | _ => trivial

/-- Two requests insert neither one batch id nor leaves of one version. -/
theorem inserting_apart {chainId : Text} {row other : AnchorBatch}
    {done rest leaves : List AnchorBatchLeaf}
    (h : (registry keccak_256 chainId).Compatible (.batching (.inserting row done rest))
      (.batching (.inserting other leaves []))) :
    other.id ≠ row.id ∧
      ∀ taken ∈ leaves, ∀ leaf ∈ done, taken.entryVersionId ≠ leaf.entryVersionId := by
  have hlocks : (Lock.batchRow row.id, LockMode.exclusive) ∈
      (registry keccak_256 chainId).locks (.batching (.inserting row done rest)) ∧
      ∀ leaf ∈ done, (Lock.leafVersion leaf.entryVersionId, LockMode.exclusive) ∈
        (registry keccak_256 chainId).locks (.batching (.inserting row done rest)) := by
    refine ⟨by simp [registry, Point.locks, Batching.locks], fun leaf hleaf => ?_⟩
    simpa [registry, Point.locks, Batching.locks] using ⟨leaf, hleaf, rfl⟩
  constructor
  · intro heq
    refine h.not_both (n := .exclusive) hlocks.1 ?_
    simp [registry, Point.locks, Batching.locks, heq]
  · intro taken htaken leaf hleaf heq
    refine h.not_both (n := .exclusive) (hlocks.2 leaf hleaf) ?_
    simpa [registry, Point.locks, Batching.locks] using ⟨taken, htaken, heq⟩

/-- Batches stay as they were built through every run. -/
theorem anchors_maintains (keccak_256 : Bytes → Digest) (chainId : Text)
    (ok : State Nat Db Point → Action Nat Given → Prop) (past : State Nat Db Point → Prop) :
    (registry keccak_256 chainId).Maintains (fun s a => past s ∧ ok s a)
      (Anchored keccak_256 past) (Point.Anchors keccak_256 past) where
  idle _ _ := trivial
  statement s w given q hs hok hnext := (Point.moves_of_next hnext).anchors hok.1 (hs.relies w)
  commit s w f hs _ heffect := by
    have hcommit := commits_of_effect heffect
    rcases commits_batch_cases hcommit with ⟨row, done, hpoint, rfl⟩ | hquiet
    · have hw := hs.relies w
      rw [hpoint] at hw
      exact hs.committed.insertBatch hw
    · exact hs.committed.quiet (evolves_of_commits hcommit _) (hquiet _).1 (hquiet _).2
  stable s w v f hs _ hne heffect := by
    have hcommit := commits_of_effect heffect
    have hevolves := evolves_of_commits hcommit s.committed
    have hcompatible := hs.compatible v w hne
    rcases commits_batch_cases hcommit with ⟨taken, leaves, hpoint, rfl⟩ | hquiet
    · have hw : Batching.Pending keccak_256 past s.committed taken leaves [] := by
        have hw := hs.relies w
        rw [hpoint] at hw
        exact hw
      rw [hpoint] at hcompatible
      refine (hs.relies v).evolves hevolves ?_ ?_
      · intro row done rest hv other hother
        rw [hv] at hcompatible
        rcases Table.mem_insertIfAbsent.mp hother with hother | ⟨rfl, -⟩
        · exact .inl hother
        · exact .inr (inserting_apart hcompatible).1
      · intro row done rest hv other hother
        rw [hv] at hcompatible
        rw [← Table.mem_rows, hw.leaves_insertBatch] at hother
        rcases List.mem_append.mp hother with hother | hother
        · exact .inl hother
        · exact .inr ((inserting_apart hcompatible).2 other hother)
    · obtain ⟨hbatches, hleaves⟩ := hquiet s.committed
      refine (hs.relies v).evolves hevolves ?_ ?_
      · exact fun _ _ _ _ other hother => .inl (hbatches ▸ hother)
      · exact fun _ _ _ _ other hother => .inl (hleaves ▸ hother)
  outside s given db hs hmoved := by
    cases hmoved
    have hevolves := evolves_elapsed s.committed given.elapsed
    refine ⟨hs.committed.quiet hevolves rfl rfl, fun w => (hs.relies w).evolves hevolves ?_ ?_⟩
    · exact fun _ _ _ _ other hother => .inl hother
    · exact fun _ _ _ _ other hother => .inl hother

end Steps

/-! ## What the tables show and what is served -/

/-- What one state of the tables shows of anchor batches. -/
structure BatchIntegrity (keccak_256 : Bytes → Digest) (db : Db) : Prop where
  once : ∀ leaf ∈ db.leaves, ∀ other ∈ db.leaves,
    leaf.entryVersionId = other.entryVersionId → leaf = other
  owned : ∀ leaf ∈ db.leaves, ∃ row ∈ db.batches, row.id = leaf.batchId
  counted : ∀ row ∈ db.batches,
    row.recordCount = (db.leavesOf row.id).length ∧ row.recordCount ≠ 0
  rooted : ∀ row ∈ db.batches, ∃ tree,
    buildMerkleTree keccak_256 ((db.leavesOf row.id).map (·.leafHash)) = .ok tree ∧
      tree.root = row.merkleRoot

/-- For each leaf a proof is served: the row is read from the one state of the
tables, the leaves of its batch from the other and in any order. -/
def ServesProofs (keccak_256 : Bytes → Digest) (db later : Db) : Prop :=
  ∀ leaf ∈ db.leaves, ∃ row, db.publicInclusionProof leaf.entryVersionId = some row ∧
    row.leaf = leaf ∧ row.batch ∈ db.batches ∧ row.batch.id = leaf.batchId ∧
    ∀ siblings, siblings.Perm ((later.leavesOf leaf.batchId).map (·.leafHash)) →
      ∃ proof, buildInclusionProof keccak_256 row siblings = .ok proof ∧
        proof.leafHash = leaf.leafHash ∧ proof.root = row.batch.merkleRoot ∧
        verifyMerkleProof keccak_256 proof.leafHash proof.proof proof.root = .ok true

section Served

variable {keccak_256 : Bytes → Digest} {past : State Nat Db Point → Prop} {db later : Db}

theorem BuiltRows.spec {row : AnchorBatch} {leaves : List AnchorBatchLeaf}
    (h : BuiltRows keccak_256 past row leaves) :
    row.recordCount = leaves.length ∧ row.recordCount ≠ 0 ∧
      (∃ tree, buildMerkleTree keccak_256 (leaves.map (·.leafHash)) = .ok tree ∧
        tree.root = row.merkleRoot) ∧
      ∃ u worker, past u ∧ u.point worker = .batching (.locked row.tenantId) ∧
        ∀ leaf ∈ leaves, LeafOf keccak_256 u.committed leaf.entryVersionId leaf.leafHash := by
  obtain ⟨batch, ⟨u, worker, uuid, hu, hpoint, hbuild⟩, hrow, rfl⟩ := h
  obtain ⟨-, -, hcount, tree, htree, hroot⟩ := buildAnchorBatch_ok hbuild
  have hlength : (batch.leafRows row.id).length = batch.leaves.length := by
    rw [BuiltBatch.leafRows, List.length_mapIdx]
  have hnonempty : batch.leaves.map (·.leafHash) ≠ [] := (buildMerkleTree_ok htree).1
  refine ⟨?_, ?_, ⟨tree, ?_, ?_⟩, u, worker, hu, hpoint, fun leaf hleaf => ?_⟩
  · rw [hlength, hrow]
    exact hcount
  · rw [hrow]
    change batch.recordCount ≠ 0
    rw [hcount]
    exact fun hzero => hnonempty (by rw [List.length_eq_zero_iff.mp hzero, List.map_nil])
  · rw [map_leafHash_leafRows]
    exact htree
  · rw [hrow]
    exact hroot
  · obtain ⟨-, own, hown, hversion, hhash⟩ := mem_leafRows hleaf
    rw [hversion, hhash]
    exact leafOf_of_build hbuild hown

theorem anchored_of_startsEmpty (h : StartsEmpty db) : Anchored keccak_256 past db := by
  obtain ⟨now, rfl⟩ := h
  exact ⟨fun _ hrow => absurd hrow (Table.not_mem_empty _),
    fun _ hleaf => absurd hleaf (Table.not_mem_empty _),
    fun _ hleaf => absurd hleaf (Table.not_mem_empty _)⟩

theorem Anchored.integrity (h : Anchored keccak_256 past db) : BatchIntegrity keccak_256 db where
  once _ hleaf _ hother heq := Table.eq_of_key hleaf hother heq
  owned := h.owned
  counted row hrow := ⟨(h.built row hrow).spec.1, (h.built row hrow).spec.2.1⟩
  rooted row hrow := (h.built row hrow).spec.2.2.1

/-- The public function finds the leaf of a version with its batch. -/
theorem Anchored.publicInclusionProof (h : Anchored keccak_256 past db)
    (hdb : Wellformed keccak_256 db) {leaf : AnchorBatchLeaf} (hleaf : leaf ∈ db.leaves) :
    ∃ row, db.publicInclusionProof leaf.entryVersionId = some row ∧ row.leaf = leaf ∧
      row.batch ∈ db.batches ∧ row.batch.id = leaf.batchId := by
  obtain ⟨batch, hbatch, hid⟩ := h.owned leaf hleaf
  obtain ⟨v, hv, hversion⟩ := h.known leaf hleaf
  have hleafFound : db.leaves.rows.find? (·.entryVersionId = leaf.entryVersionId) = some leaf :=
    Table.lookup_eq_some.mpr ⟨hleaf, rfl⟩
  have hbatchFound : db.batches.rows.find? (·.id = leaf.batchId) = some batch :=
    Table.lookup_eq_some.mpr ⟨hbatch, hid⟩
  cases hfound : db.versions.rows.find? fun v =>
      v.id = leaf.entryVersionId ∧ v.status ≠ .draft with
  | none =>
    have hnot := List.find?_eq_none.mp hfound v hv
    simp [hversion, (hdb.visible v hv).1] at hnot
  | some version =>
    refine ⟨{ leaf, batch, version }, ?_, rfl, hbatch, hid⟩
    simp only [Db.publicInclusionProof, hleafFound, hbatchFound, hfound, bind, Option.bind]

/-- Any order of the leaves gives the stored root and a proof that verifies. -/
theorem Anchored.proof_verifies (h : Anchored keccak_256 past db) {row : InclusionRow}
    (hleaf : row.leaf ∈ db.leaves) (hbatch : row.batch ∈ db.batches)
    (hid : row.batch.id = row.leaf.batchId) {siblings : List Text}
    (hsiblings : siblings.Perm ((db.leavesOf row.leaf.batchId).map (·.leafHash))) :
    ∃ proof, buildInclusionProof keccak_256 row siblings = .ok proof ∧
      proof.leafHash = row.leaf.leafHash ∧ proof.root = row.batch.merkleRoot ∧
      verifyMerkleProof keccak_256 proof.leafHash proof.proof proof.root = .ok true := by
  obtain ⟨-, -, ⟨tree, htree, hroot⟩, u, -, -, -, hread⟩ := (h.built row.batch hbatch).spec
  rw [hid] at htree hread
  have hsame : buildMerkleTree keccak_256 siblings = .ok tree :=
    buildMerkleTree_perm hsiblings.symm htree
  have hmember : row.leaf.leafHash ∈ (db.leavesOf row.leaf.batchId).map (·.leafHash) :=
    List.mem_map_of_mem (List.mem_filter.mpr ⟨hleaf, decide_eq_true rfl⟩)
  obtain ⟨path, hpath, hverify⟩ := Canonical.proof_verifies hsame (fun text htext => by
    obtain ⟨leaf, hleaf, rfl⟩ := List.mem_map.mp (hsiblings.mem_iff.mp htext)
    obtain ⟨entry, -, v, -, -, -, hhash⟩ := hread leaf hleaf
    obtain ⟨bytes, -, heq⟩ := exists_of_hashLeaf hhash
    exact ⟨_, heq⟩) (hsiblings.mem_iff.mpr hmember)
  rw [hroot] at hverify
  have hbuilt : buildInclusionProof keccak_256 row siblings = .ok {
      leafHash := row.leaf.leafHash
      proof := path
      root := row.batch.merkleRoot
      batchId := row.batch.batchId
      policyVersion := row.version.policyVersion
      schemaVersion := row.version.schemaVersion
      serializationVersion := row.version.serializationVersion } := by
    simp only [buildInclusionProof, hsame, hpath, bind, Except.bind]
  exact ⟨_, hbuilt, rfl, rfl, hverify⟩

end Served

theorem anchored_of_run (keccak_256 : Bytes → Digest) (chainId : Text)
    {s t : State Nat Db Point} {labels : List (Action Nat Given)}
    (hstart : (registrySystem keccak_256 chainId).initial s)
    (run : (registrySystem keccak_256 chainId).Run s labels t) :
    Anchored keccak_256 ((registrySystem keccak_256 chainId).Visits s labels t) t.committed := by
  have hsound := Protocol.Maintains.run_past
    (anchors_maintains keccak_256 chainId fun _ _ => True)
    (fun _ hmore h => h.mono hmore) (fun _ _ hmore h => h.mono hmore)
    (fun _ _ => anchored_of_startsEmpty) hstart (run.restrict fun _ _ _ => trivial)
  exact hsound.committed.mono fun _ => System.Visits.of_restrict

/-- In every state of every run each version is a leaf of at most one batch,
each batch has its leaves, its count and its root, its leaf hashes are those of
the versions as its build read them under the tenant's lock, and the proof
served for any of them from then on verifies against the stored root. -/
theorem batch_integrity (keccak_256 : Bytes → Digest) (chainId : Text)
    {s₀ s t : State Nat Db Point} {labels more : List (Action Nat Given)}
    (hstart : (registrySystem keccak_256 chainId).initial s₀)
    (run : (registrySystem keccak_256 chainId).Run s₀ labels s)
    (later : (registrySystem keccak_256 chainId).Run s more t) :
    BatchIntegrity keccak_256 s.committed ∧
      (∀ row ∈ s.committed.batches, ∃ u worker,
        (registrySystem keccak_256 chainId).Visits s₀ labels s u ∧
        u.point worker = .batching (.locked row.tenantId) ∧
        ∀ leaf ∈ s.committed.leavesOf row.id,
          LeafOf keccak_256 u.committed leaf.entryVersionId leaf.leafHash) ∧
      ServesProofs keccak_256 s.committed t.committed := by
  have hanchored := anchored_of_run keccak_256 chainId hstart run
  have hlater := anchored_of_run keccak_256 chainId hstart (run.append later)
  have hwellformed := wellformed_of_reachable ⟨s₀, labels, hstart, run⟩
  refine ⟨hanchored.integrity, fun row hrow => ?_, fun leaf hleaf => ?_⟩
  · exact (hanchored.built row hrow).spec.2.2.2
  · obtain ⟨row, hrow, rfl, hbatch, hid⟩ := hanchored.publicInclusionProof hwellformed hleaf
    have hevolves := evolves_of_run later
    exact ⟨row, hrow, rfl, hbatch, hid, fun siblings hsiblings =>
      hlater.proof_verifies (hevolves.leaves _ hleaf) (hevolves.batches _ hbatch) hid hsiblings⟩

section Runs

/-- Keccak-256 on the byte strings hashed in the runs of this and the next
module; length and third byte tell them apart. -/
def runKeccak (input : Bytes) : Digest :=
  match input.length, (input.getD 2 0).toNat with
  -- the two projections
  | 188, _ => digestOf 0xa00d921e77b32542399b45ce068903f75abaf3e8df6a88d4d6c08250c2722e50
  | 189, _ => digestOf 0xdb59d40d8b7f5198d71063f1414cad0aeb6994df202197bc4d6546f272103640
  -- their leaves, the first also when it is revoked
  | 264, _ => digestOf 0xbef2bed04993bc04096a754822174c618798005f3c0343c593dc9417fcb39cfe
  | 32, 0xbe => digestOf 0x7c2882b7ea902fd4e318593c10be9887aa2ea81e6597e743562f3df1da3dbb01
  | 266, 0x63 => digestOf 0x663faa78a9955ef4cb356c74f85a9d1b2f1456998e3429f57d76737a2d237446
  | 32, 0xaa => digestOf 0xdde0d27ea819e001bd7c8a4492fd2242abed061782bc8b07cfa84a332b0aa242
  | 262, _ => digestOf 0x6b8fda2d897d99e235533a6f29bfee323d200eccf8ba69aa63c8f541087fabf9
  | 32, 0xda => digestOf 0x1582fbbbf0c4ff5d4ba8ecfcae0bbb1ce4a3159a99df0a64d78e9ac9309ec226
  -- the root, the batch id and the manifest of both
  | 64, _ => digestOf 0xecc0cf8f379757b18846eb85f7e4fe3fee963a765d2e603b9f9b150381da2a3e
  | 95, _ => digestOf 0x4db6db404eda5d8c277dbf63beaae6df92b193508d3b374f7aceb62b4b529824
  | 378, _ => digestOf 0xf6b7c958f7b407752c1132175ea101c535975539dbca6aa6287e164dbbae65b8
  -- the batch id and the manifest of the first alone
  | 96, _ => digestOf 0x6ebfcd0bc35eb8f4c25bd5a8e571a3fa2266ac56b56996516b2081b2d99759ee
  | 266, 0x6c => digestOf 0xe1dfc47385ddb3b84e55ce97534cf5259a02c1514cc7484ea02c662477f0568e
  | _, _ => digestOf 0

def runRegistry : Protocol Db Point Given Refusal Lock := registry runKeccak (units "31337")

def batchScript (steps : Nat) (id : Uuid) : List Given :=
  List.replicate steps (given (.anchorBatch (units "tenant")) id)

def publishedTwo : List (List Given) := [
  draftScript (plainDraft (units "draft 1") (units "project 1") (units "KEY-1")),
  publishScript 11 (units "draft 1") (units "version 1"),
  draftScript (plainDraft (units "draft 10") (units "project 10") (units "KEY-10")),
  publishScript 11 (units "draft 10") (units "version 10")]

def anchoredTwo : List (List Given) := publishedTwo ++ [batchScript 6 (units "batch 1")]

/-- Two records are published and anchored in one batch. -/
theorem batch_integrity_two :
    ∃ s : State Nat Db Point, BatchIntegrity runKeccak s.committed ∧
      (∃ row ∈ s.committed.batches, row.recordCount = 2 ∧ ∃ u : State Nat Db Point,
        ∀ leaf ∈ s.committed.leavesOf row.id,
          LeafOf runKeccak u.committed leaf.entryVersionId leaf.leafHash) ∧
      ServesProofs runKeccak s.committed s.committed := by
  have hrun : ((runRegistry.inTurn (fun _ _ => true) (Db.empty 0) anchoredTwo).any fun db =>
      db.batches.rows.any fun row => row.recordCount = 2) = true := by
    decide +kernel
  obtain ⟨db, hdb, hrow⟩ := Option.any_eq_true _ _ |>.mp hrun
  obtain ⟨row, hmem, hcount⟩ := List.any_eq_true.mp hrow
  have hok := Protocol.permits_true (P := runRegistry) (W := Nat) fun _ _ => true
  obtain ⟨labels, run⟩ := Protocol.run_inTurn StartsEmpty hok 0 hdb
  have hstart : (registrySystem runKeccak (units "31337")).initial
      (runRegistry.atRest (Db.empty 0)) := ⟨⟨0, rfl⟩, fun _ => rfl⟩
  obtain ⟨hintegrity, hread, hserves⟩ :=
    batch_integrity runKeccak (units "31337") hstart run.of_restrict (.nil _)
  obtain ⟨u, -, -, -, hleaves⟩ := hread row hmem
  exact ⟨_, hintegrity, ⟨row, hmem, of_decide_eq_true hcount, u, hleaves⟩, hserves⟩

end Runs

end MpcRegistry.Registry
