import MpcRegistry.Registry.AnchorBatches
import MpcRegistry.Registry.CreReports

/-!
# The registry as a system of requests

Any number of requests of any kind run their statements in any order READ
COMMITTED and the locks allow. Every request begins, runs and ends on its own;
only its commit changes the tables.
-/
namespace MpcRegistry.Registry
open Library ReadCommitted Canonical

inductive Request where
  | draft (draft : Draft)
  | rejectDraft (tenantId draftId decider : Uuid) (expected : Nat)
  | publish (request : PublishRequest)
  | revoke (request : RevokeRequest)
  | anchorBatch (tenantId : Uuid)
  | creReport (request : ReportRequest)

/-- What a statement is told that is in none of the tables: the request that
arrives, a random UUID, the state of the subject and of its evidence, and the
time that goes by. -/
structure Given where
  request : Request
  uuid : Uuid
  publishedStatus : Text
  lifecycleState : Text
  health : Health
  elapsed : Nat

inductive Point where
  | idle
  | drafting (point : Drafting)
  | publishing (point : Publishing)
  | revoking (point : Revoking)
  | batching (point : Batching)
  | reporting (point : Reporting)

def Request.arrive (now : Nat) : Request → Point
  | .draft row => .drafting (.begun row)
  | .rejectDraft tenantId draftId decider expected =>
    .drafting (.rejectBegun tenantId draftId decider expected)
  | .publish request => .publishing (.begun request now)
  | .revoke request => .revoking (.begun request now)
  | .anchorBatch tenantId => .batching (.begun tenantId)
  | .creReport request => .reporting (.begun request)

namespace Point

def next (keccak_256 : Bytes → Digest) (chainId : Text) (db : Db) (given : Given) :
    Point → Except Refusal Point
  | idle => .ok (given.request.arrive db.now)
  | drafting point => (point.next db).map drafting
  | publishing point => (point.next keccak_256 db given.uuid given.publishedStatus).map publishing
  | revoking point => (point.next db).map revoking
  | batching point => (point.next keccak_256 db given.uuid).map batching
  | reporting point =>
    (point.next keccak_256 chainId db given.lifecycleState given.health).map reporting

def effect : Point → Option (Db → Db)
  | idle => none
  | drafting point => point.effect
  | publishing point => point.effect
  | revoking point => point.effect
  | batching point => point.effect
  | reporting point => point.effect

def locks : Point → List (Lock × LockMode)
  | idle => []
  | drafting point => point.locks
  | publishing point => point.locks
  | revoking point => point.locks
  | batching point => point.locks
  | reporting point => point.locks

end Point

/-- The registry of a deployment on one chain. -/
def registry (keccak_256 : Bytes → Digest) (chainId : Text) :
    Protocol Db Point Given Refusal Lock where
  idle := .idle
  statement db point given := point.next keccak_256 chainId db given
  effect := Point.effect
  locks := Point.locks
  outside db given := some { db with now := db.now + given.elapsed }
  locks_idle := rfl

def StartsEmpty (db : Db) : Prop := ∃ now, db = Db.empty now

/-- Any number of workers over tables that start empty. -/
abbrev registrySystem (keccak_256 : Bytes → Digest) (chainId : Text) :
    System (State Nat Db Point) (Action Nat Given) :=
  (registry keccak_256 chainId).system StartsEmpty

/-! ## What a statement can do -/

/-- Everything a statement of a publication can do, with what it found. -/
inductive Publishing.Moves (keccak_256 : Bytes → Digest) (db : Db) : Publishing → Publishing → Prop where
  | draftLocked (request : PublishRequest) (now : Nat) (draft : Draft)
      (found : db.draftById request.tenantId request.draftId = some draft)
      (pending : draft.state = .pending) (other : draft.proposedBySubjectId ≠ request.publisher) :
      Moves keccak_256 db (begun request now) (draftLocked draft request.publisher now)
  | ledgerLocked (draft : Draft) (publisher : Uuid) (now : Nat) :
      Moves keccak_256 db (draftLocked draft publisher now) (ledgerLocked draft publisher now)
  | inputsLocked (draft : Draft) (publisher : Uuid) (now : Nat) :
      Moves keccak_256 db (ledgerLocked draft publisher now) (inputsLocked draft publisher now)
  | hashed (plan : Plan)
      (hash : hashProjection keccak_256 plan.projection = .ok plan.contentHash) :
      Moves keccak_256 db (inputsLocked plan.draft plan.publisher plan.now) (hashed plan)
  | entryFound (plan : Plan) (entry : Entry)
      (found : db.entryFor plan.draft.tenantId plan.draft.registryType plan.draft.publicKey =
        some entry) (subject : entry.subjectId = plan.draft.subjectId) :
      Moves keccak_256 db (hashed plan) (entryReady { toPlan := plan, entry, fresh := false })
  | entryMissing (plan : Plan) : Moves keccak_256 db (hashed plan) (entryMissing plan)
  | entryInserted (plan : Plan) (uuid : Uuid) (entry : Entry)
      (row : entry = {
        id := uuid
        tenantId := plan.draft.tenantId
        registryType := plan.draft.registryType
        subjectId := plan.draft.subjectId
        publicKey := plan.draft.publicKey })
      (absent : ∀ e ∈ db.entries, e.id ≠ entry.id ∧
        ¬ (e.registryType = entry.registryType ∧ e.publicKey = entry.publicKey)) :
      Moves keccak_256 db (entryMissing plan) (entryReady { toPlan := plan, entry, fresh := true })
  | previousRead (placement : Placement) :
      Moves keccak_256 db (entryReady placement) (previousRead placement
        (db.versionsDesc placement.draft.tenantId placement.entry.id).head?)
  | versionInserted (work : Work)
      (version : work.version = work.toPlacement.nextVersion work.previous work.version.id)
      (number : ∀ v ∈ db.versions,
        ¬ (v.entryId = work.version.entryId ∧ v.version = work.version.version))
      (fresh : ∀ v ∈ db.versions, v.id ≠ work.version.id) :
      Moves keccak_256 db (previousRead work.toPlacement work.previous) (versionInserted work)
  | previousSuperseded (work : Work) :
      Moves keccak_256 db (versionInserted work) (previousSuperseded work)
  | draftDecided (work : Work) : Moves keccak_256 db (previousSuperseded work) (draftDecided work)

theorem Publishing.moves_of_next {keccak_256 : Bytes → Digest} {db : Db} {point q : Publishing}
    {uuid : Uuid} {publishedStatus : Text}
    (h : point.next keccak_256 db uuid publishedStatus = .ok q) : Moves keccak_256 db point q := by
  cases point with
  | begun request now =>
    simp only [next] at h
    split at h
    · cases h
    · next draft hfound =>
      obtain ⟨_, -, h⟩ := Outcome.bind_ok.mp h
      obtain ⟨hpending, h⟩ := Outcome.guard_ok.mp h
      obtain ⟨hother, h⟩ := Outcome.guard_ok.mp h
      cases h
      exact .draftLocked request now draft hfound (not_not.mp hpending) hother
  | draftLocked draft publisher now =>
    cases h
    exact .ledgerLocked draft publisher now
  | ledgerLocked draft publisher now =>
    cases h
    exact .inputsLocked draft publisher now
  | inputsLocked draft publisher now =>
    simp only [next] at h
    split at h
    · cases h
    · next contentHash hhash =>
      cases h
      exact .hashed ⟨draft, publisher, now, _, contentHash⟩ hhash
  | hashed plan =>
    simp only [next] at h
    split at h
    · next entry hfound =>
      obtain ⟨hsubject, h⟩ := Outcome.guard_ok.mp h
      cases h
      exact .entryFound plan entry hfound (not_not.mp hsubject)
    · cases h
      exact .entryMissing plan
  | entryMissing plan =>
    obtain ⟨hkey, h⟩ := Outcome.guard_ok.mp h
    obtain ⟨hid, h⟩ := Outcome.guard_ok.mp h
    cases h
    exact .entryInserted plan uuid _ rfl fun e he =>
      ⟨fun heq => hid ⟨e, he, heq⟩, fun hsame => hkey ⟨e, he, hsame⟩⟩
  | entryReady placement =>
    cases h
    exact .previousRead placement
  | previousRead placement previous =>
    obtain ⟨hnumber, h⟩ := Outcome.guard_ok.mp h
    obtain ⟨hid, h⟩ := Outcome.guard_ok.mp h
    cases h
    exact .versionInserted ⟨placement, previous, _⟩ rfl (fun v hv hsame => hnumber ⟨v, hv, hsame⟩)
      fun v hv heq => hid ⟨v, hv, heq⟩
  | versionInserted work =>
    cases h
    exact .previousSuperseded work
  | previousSuperseded work =>
    cases h
    exact .draftDecided work
  | draftDecided work => cases h

/-- A statement that succeeded, by the kind of request it belongs to. -/
inductive Point.Moves (keccak_256 : Bytes → Digest) (chainId : Text) (db : Db) (given : Given) :
    Point → Point → Prop where
  | arrives : Moves keccak_256 chainId db given .idle (given.request.arrive db.now)
  | drafting {p q : Drafting} (ran : p.next db = .ok q) :
      Moves keccak_256 chainId db given (.drafting p) (.drafting q)
  | publishing {p q : Publishing} (ran : p.Moves keccak_256 db q) :
      Moves keccak_256 chainId db given (.publishing p) (.publishing q)
  | revoking {p q : Revoking} (ran : p.next db = .ok q) :
      Moves keccak_256 chainId db given (.revoking p) (.revoking q)
  | batching {p q : Batching} (ran : p.next keccak_256 db given.uuid = .ok q) :
      Moves keccak_256 chainId db given (.batching p) (.batching q)
  | reporting {p q : Reporting}
      (ran : p.next keccak_256 chainId db given.lifecycleState given.health = .ok q) :
      Moves keccak_256 chainId db given (.reporting p) (.reporting q)

theorem Point.moves_of_next {keccak_256 : Bytes → Digest} {chainId : Text} {db : Db}
    {given : Given} {point q : Point} (h : point.next keccak_256 chainId db given = .ok q) :
    Moves keccak_256 chainId db given point q := by
  cases point with
  | idle =>
    cases h
    exact .arrives
  | drafting point =>
    obtain ⟨q, hq, rfl⟩ := Outcome.map_ok.mp h
    exact .drafting hq
  | publishing point =>
    obtain ⟨q, hq, rfl⟩ := Outcome.map_ok.mp h
    exact .publishing (Publishing.moves_of_next hq)
  | revoking point =>
    obtain ⟨q, hq, rfl⟩ := Outcome.map_ok.mp h
    exact .revoking hq
  | batching point =>
    obtain ⟨q, hq, rfl⟩ := Outcome.map_ok.mp h
    exact .batching hq
  | reporting point =>
    obtain ⟨q, hq, rfl⟩ := Outcome.map_ok.mp h
    exact .reporting hq

/-! ## What a commit can be -/

/-- Everything a commit can do, in one case for each request that writes. -/
inductive Commits : Point → (Db → Db) → Prop where
  | draft (draft : Draft) :
      Commits (.drafting (.inserted draft)) fun db =>
        { db with drafts := db.drafts.insertIfAbsent draft }
  | reject (draft : Draft) (decider : Uuid) :
      Commits (.drafting (.rejected draft decider)) (Db.rejectDraft draft decider)
  | publish (work : Work) : Commits (.publishing (.draftDecided work)) work.apply
  | revoke (now : Nat) (version : EntryVersion) :
      Commits (.revoking (.revoked now version)) (Db.revokeVersion now version)
  | batch (row : AnchorBatch) (done : List AnchorBatchLeaf) :
      Commits (.batching (.inserting row done [])) fun db =>
        { db with
          batches := db.batches.insertIfAbsent row
          leaves := done.foldl (fun leaves leaf => leaves.insertIfAbsent leaf) db.leaves }
  | report (row : CreReport) :
      Commits (.reporting (.inserted row)) fun db =>
        { db with reports := db.reports.insertIfAbsent row }

theorem commits_of_effect {point : Point} {f : Db → Db} (h : point.effect = some f) :
    Commits point f := by
  cases point with
  | idle => cases h
  | drafting point =>
    cases point <;> cases h
    · exact .draft _
    · exact .reject _ _
  | publishing point =>
    cases point <;> cases h
    exact .publish _
  | revoking point =>
    cases point <;> cases h
    exact .revoke _ _
  | batching point =>
    cases point with
    | inserting row done rest =>
      cases rest <;> cases h
      exact .batch _ _
    | begun _ => cases h
    | locked _ => cases h
    | built _ _ => cases h
  | reporting point =>
    cases point <;> cases h
    exact .report _

/-! ## What no commit undoes -/

/-- The columns that are set once. -/
def Draft.SameSubject (a b : Draft) : Prop :=
  a.id = b.id ∧ a.tenantId = b.tenantId ∧ a.registryType = b.registryType ∧
    a.subjectId = b.subjectId ∧ a.publicKey = b.publicKey

theorem Draft.SameSubject.refl (d : Draft) : d.SameSubject d := ⟨rfl, rfl, rfl, rfl, rfl⟩

theorem Draft.SameSubject.trans {a b c : Draft} (hab : a.SameSubject b) (hbc : b.SameSubject c) :
    a.SameSubject c := by
  obtain ⟨hid, htenant, htype, hsubject, hkey⟩ := hab
  obtain ⟨hid', htenant', htype', hsubject', hkey'⟩ := hbc
  exact ⟨hid.trans hid', htenant.trans htenant', htype.trans htype', hsubject.trans hsubject',
    hkey.trans hkey'⟩

/-- All but the status and its links. -/
def EntryVersion.SameRecord (a b : EntryVersion) : Prop :=
  a = { b with
    status := a.status
    revokedAt := a.revokedAt
    supersededById := a.supersededById }

theorem EntryVersion.SameRecord.refl (v : EntryVersion) : v.SameRecord v := rfl

theorem EntryVersion.SameRecord.trans {a b c : EntryVersion} (hab : a.SameRecord b)
    (hbc : b.SameRecord c) : a.SameRecord c := by
  rw [SameRecord] at hab hbc ⊢
  rw [hbc] at hab
  exact hab

/-- Rows stay, but for the state of a draft and the status of a version. -/
structure Evolves (db db' : Db) : Prop where
  drafts : ∀ d ∈ db.drafts, ∃ d' ∈ db'.drafts, d'.SameSubject d
  entries : ∀ e ∈ db.entries, e ∈ db'.entries
  versions : ∀ v ∈ db.versions, ∃ v' ∈ db'.versions, v'.SameRecord v
  batches : ∀ b ∈ db.batches, b ∈ db'.batches
  leaves : ∀ l ∈ db.leaves, l ∈ db'.leaves
  reports : ∀ r ∈ db.reports, r ∈ db'.reports
  now : db.now ≤ db'.now

theorem Evolves.refl (db : Db) : Evolves db db where
  drafts d hd := ⟨d, hd, .refl d⟩
  entries _ h := h
  versions v hv := ⟨v, hv, .refl v⟩
  batches _ h := h
  leaves _ h := h
  reports _ h := h
  now := Nat.le_refl _

theorem Evolves.trans {a b c : Db} (hab : Evolves a b) (hbc : Evolves b c) : Evolves a c where
  drafts d hd := by
    obtain ⟨d', hd', hsame⟩ := hab.drafts d hd
    obtain ⟨d'', hd'', hsame'⟩ := hbc.drafts d' hd'
    exact ⟨d'', hd'', hsame'.trans hsame⟩
  entries e he := hbc.entries e (hab.entries e he)
  versions v hv := by
    obtain ⟨v', hv', hsame⟩ := hab.versions v hv
    obtain ⟨v'', hv'', hsame'⟩ := hbc.versions v' hv'
    exact ⟨v'', hv'', hsame'.trans hsame⟩
  batches b hb := hbc.batches b (hab.batches b hb)
  leaves l hl := hbc.leaves l (hab.leaves l hl)
  reports r hr := hbc.reports r (hab.reports r hr)
  now := Nat.le_trans hab.now hbc.now

/-- An update of drafts or of versions keeps each row's set-once columns. -/
theorem exists_updated {ρ κ : Type} {key : ρ → κ} {t : Table key} {selected : ρ → Bool}
    (change : ρ → ρ) (keeps : ∀ r, key (change r) = key r) (same : ρ → ρ → Prop)
    (hrefl : ∀ r, same r r) (hchange : ∀ r, same (change r) r) {r : ρ} (hr : r ∈ t) :
    ∃ r' ∈ t.update selected change keeps, same r' r := by
  refine ⟨_, Table.mem_update_of_mem keeps hr, ?_⟩
  split
  · exact hchange r
  · exact hrefl r

theorem mem_foldl_insertIfAbsent {ρ κ : Type} [DecidableEq κ] {key : ρ → κ} {t : Table key}
    {rows : List ρ} {r : ρ} (h : r ∈ t) :
    r ∈ rows.foldl (fun t row => t.insertIfAbsent row) t := by
  induction rows generalizing t with
  | nil => exact h
  | cons row rows ih => exact ih (Table.mem_insertIfAbsent_of_mem h)

theorem evolves_of_commits {point : Point} {f : Db → Db} (h : Commits point f) (db : Db) :
    Evolves db (f db) := by
  have hrefl := Evolves.refl db
  have hdrafts : ∀ (selected : Draft → Bool) (state : DraftState) (decider : Uuid)
      (versionId : Option Uuid), ∀ d ∈ db.drafts,
      ∃ d' ∈ db.drafts.update selected (Draft.decide state decider versionId) fun _ => rfl,
        d'.SameSubject d := fun selected state decider versionId d hd =>
    exists_updated (Draft.decide state decider versionId) (fun _ => rfl) Draft.SameSubject
      Draft.SameSubject.refl (fun _ => ⟨rfl, rfl, rfl, rfl, rfl⟩) hd
  cases h with
  | draft draft =>
    exact { hrefl with
      drafts := fun d hd => ⟨d, Table.mem_insertIfAbsent_of_mem hd, .refl d⟩ }
  | reject draft decider => exact { hrefl with drafts := hdrafts _ _ _ _ }
  | publish work =>
    refine { hrefl with drafts := hdrafts _ _ _ _, entries := fun e he => ?_, versions := ?_ }
    · simp only [Work.apply]
      split
      · exact Table.mem_insertIfAbsent_of_mem he
      · exact he
    · exact fun v hv => exists_updated (EntryVersion.supersede work.version.id) (fun _ => rfl)
        EntryVersion.SameRecord EntryVersion.SameRecord.refl (fun _ => rfl)
        (Table.mem_insertIfAbsent_of_mem hv)
  | revoke now version =>
    exact { hrefl with
      versions := fun v hv => exists_updated (EntryVersion.revoke now) (fun _ => rfl)
        EntryVersion.SameRecord EntryVersion.SameRecord.refl (fun _ => rfl) hv }
  | batch row done =>
    exact { hrefl with
      batches := fun b hb => Table.mem_insertIfAbsent_of_mem hb
      leaves := fun l hl => mem_foldl_insertIfAbsent hl }
  | report row =>
    exact { hrefl with reports := fun r hr => Table.mem_insertIfAbsent_of_mem hr }

theorem evolves_elapsed (db : Db) (elapsed : Nat) :
    Evolves db { db with now := db.now + elapsed } :=
  { Evolves.refl db with now := Nat.le_add_right _ _ }

theorem evolves_of_run {keccak_256 : Bytes → Digest} {chainId : Text}
    {s t : State Nat Db Point} {labels : List (Action Nat Given)}
    (run : (registrySystem keccak_256 chainId).Run s labels t) :
    Evolves s.committed t.committed := by
  refine run.relates (I := fun _ => True) (R := fun u v => Evolves u.committed v.committed) trivial
    (fun _ _ _ _ _ => trivial) (fun _ => .refl _) (fun _ _ _ => .trans) fun u a v _ taken => ?_
  cases taken with
  | statement _ _ => exact .refl _
  | refused _ => exact .refl _
  | abort _ => exact .refl _
  | commit done => exact evolves_of_commits (commits_of_effect done) _
  | outside moved =>
    cases moved
    exact evolves_elapsed _ _

end MpcRegistry.Registry
