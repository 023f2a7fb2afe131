import MpcRegistry.Staleness.Propagation

/-!
# Whether what goes stale is signalled

A signal stands for one target and one attestation, and once closed it is final. An
attestation that comes back and goes stale again finds the closed signal in the place of
the new one. Of the assessments, the newest of the project is signalled, not the newest of
each gate.
-/
namespace MpcRegistry.Staleness
open Library Outcome Utf16

namespace Db

/-- The latest assessment of each gate of a project and its published versions. -/
def targets (db : Db) (projectId : Uuid) : List (TargetType × Uuid) :=
  ((db.assessments.rows.filter fun x => x.projectId = projectId && db.isLatestOfGate x).map
    fun x => (.complianceAssessment, x.id)) ++
  ((db.versions.rows.filter fun v => v.status = .published &&
    db.entries.rows.any fun e => e.id = v.entryId && e.registryType = .project &&
      e.subjectId = projectId).map fun v => (.registryEntryVersion, v.id))

/-- The signal that tells a target of an attestation. -/
def signalOf (db : Db) (attestationId : Uuid) (target : TargetType × Uuid) : Option Signal :=
  db.signals.lookup (target.1, target.2, .attestation attestationId)

/-- Every target has an open signal that names the attestation. -/
def Signalled (db : Db) (projectId attestationId : Uuid) : Prop :=
  ∀ target ∈ db.targets projectId, ∃ signal ∈ db.signalOf attestationId target,
    signal.resolution = .open

/-- No target has a closed signal of the attestation, and of the assessments only the newest
of the project has none at all. -/
structure CanSignal (db : Db) (projectId attestationId : Uuid) : Prop where
  unhidden : ∀ target ∈ db.targets projectId, ∀ signal ∈ db.signalOf attestationId target,
    signal.resolution = .open
  gates : ∀ x ∈ db.assessments.rows, x.projectId = projectId → db.isLatestOfGate x = true →
    db.latestAssessment projectId = some x ∨
      (db.signalOf attestationId (.complianceAssessment, x.id)).isSome

end Db

instance (db : Db) (projectId attestationId : Uuid) :
    Decidable (db.Signalled projectId attestationId) :=
  inferInstanceAs (Decidable (∀ target ∈ db.targets projectId, _))

instance (db : Db) (projectId attestationId : Uuid) :
    Decidable (db.CanSignal projectId attestationId) :=
  decidable_of_iff (_ ∧ _)
    ⟨fun ⟨unhidden, gates⟩ => ⟨unhidden, gates⟩, fun h => ⟨h.unhidden, h.gates⟩⟩

/-- The attestation goes stale between the two. -/
def BecomesStale (before after : Db) (a : Attestation) : Prop :=
  a ∈ after.attestations.rows ∧ a.state = .staleCandidate ∧
    ∀ b ∈ before.attestations.rows, b.id = a.id → b.state ≠ .staleCandidate

instance (before after : Db) (a : Attestation) : Decidable (BecomesStale before after a) :=
  inferInstanceAs (Decidable (_ ∧ _ ∧ ∀ b ∈ before.attestations.rows, _ → _))

variable {db db' next : Db} {a b : Attestation}

/-! ## What is moved is signalled -/

theorem origin_of_mem_signalsOf {signal : Signal} (h : signal ∈ db.signalsOf a) :
    signal.origin = .attestation a.id ∧ signal.resolution = .open := by
  unfold Db.signalsOf at h
  split at h
  · cases h
  · rcases List.mem_append.mp h with h | h
    · obtain ⟨x, -, rfl⟩ := Option.mem_map.mp (Option.mem_toList.mp h)
      exact ⟨rfl, rfl⟩
    · obtain ⟨v, -, rfl⟩ := List.mem_map.mp h
      exact ⟨rfl, rfl⟩

/-- A row and its signals across triggers: left alone, or gone stale and signalled. -/
def Follows (before after : Db) (b a : Attestation) : Prop :=
  a = b ∧ (∀ target, after.signalOf b.id target = before.signalOf b.id target) ∨
  b.state = .active ∧ (∃ reason, a = b.goStale reason) ∧
    ∀ target, after.signalOf b.id target = (before.signalOf b.id target).or
      ((before.signalsOf a).find? fun s => s.key = (target.1, target.2, .attestation b.id))

/-- Triggers move attestations and signal them, and touch nothing they are signalled to. -/
structure Propagated (before after : Db) : Prop where
  cases : after.cases = before.cases
  assessments : after.assessments = before.assessments
  entries : after.entries = before.entries
  versions : after.versions = before.versions
  rows : ∀ a ∈ after.attestations, ∃ b ∈ before.attestations, b.id = a.id ∧
    Follows before after b a

theorem Propagated.refl (db : Db) : Propagated db db where
  cases := rfl
  assessments := rfl
  entries := rfl
  versions := rfl
  rows a ha := ⟨a, ha, rfl, .inl ⟨rfl, fun _ => rfl⟩⟩

theorem Propagated.signalsOf (h : Propagated db db') (a : Attestation) :
    db'.signalsOf a = db.signalsOf a := by
  unfold Db.signalsOf Db.latestAssessment Db.publishedVersions
  rw [h.cases, h.assessments, h.entries, h.versions]

theorem Propagated.trans (first : Propagated db db') (second : Propagated db' next) :
    Propagated db next where
  cases := second.cases.trans first.cases
  assessments := second.assessments.trans first.assessments
  entries := second.entries.trans first.entries
  versions := second.versions.trans first.versions
  rows a ha := by
    obtain ⟨c, hc, hcid, hlater⟩ := second.rows a ha
    obtain ⟨b, hb, hbid, hearlier⟩ := first.rows c hc
    refine ⟨b, hb, hbid.trans hcid, ?_⟩
    rcases hearlier with ⟨rfl, hsame⟩ | ⟨hactive, ⟨reason, hstale⟩, hnew⟩
    · rcases hlater with ⟨rfl, hsame'⟩ | ⟨hactive, hstale, hnew⟩
      · exact .inl ⟨rfl, fun target => (hsame' target).trans (hsame target)⟩
      · refine .inr ⟨hactive, hstale, fun target => ?_⟩
        rw [hnew target, hsame target, first.signalsOf]
    · rcases hlater with ⟨rfl, hsame'⟩ | ⟨hactive', -⟩
      · refine .inr ⟨hactive, ⟨reason, hstale⟩, fun target => ?_⟩
        rw [hbid, hsame' target, ← hbid, hnew target]
      · rw [hstale] at hactive'
        cases hactive'

theorem signalOf_markStale {selected : Attestation → Bool} {reason : StaleReason} (id : Uuid)
    (target : TargetType × Uuid) :
    (db.markStale selected reason).signalOf id target = (db.signalOf id target).or
      (((db.attestations.rows.filter fun a => a.state = .active && selected a).map
        (Attestation.goStale reason)).findSome? fun a =>
          (db.signalsOf a).find? fun s => s.key = (target.1, target.2, .attestation id)) := by
  unfold Db.markStale Db.insertSignals Db.signalOf
  rw [Table.lookup_foldl_insertIfAbsent, List.find?_flatMap]

theorem find?_signalsOf_of_ne {id : Uuid} (target : TargetType × Uuid) (hne : a.id ≠ id) :
    (db.signalsOf a).find? (fun s => s.key = (target.1, target.2, .attestation id)) = none := by
  refine List.find?_eq_none.mpr fun s hs hkey => ?_
  have horigin : s.origin = .attestation id := congrArg (·.2.2) (of_decide_eq_true hkey)
  rw [(origin_of_mem_signalsOf hs).1] at horigin
  exact hne (SignalOrigin.attestation.inj horigin)

/-- Of what a search asks one by one, only one can answer. -/
theorem findSome?_of_unique {α β : Type} {f : α → Option β} {xs : List α} {x : α} (hx : x ∈ xs)
    (others : ∀ y ∈ xs, y ≠ x → f y = none) : xs.findSome? f = f x := by
  cases h : f x with
  | none =>
    refine List.findSome?_eq_none_iff.mpr fun y hy => ?_
    by_cases heq : y = x
    · exact heq ▸ h
    · exact others y hy heq
  | some r =>
    obtain ⟨s, hs⟩ := Option.isSome_iff_exists.mp
      (List.findSome?_isSome_iff.mpr ⟨x, hx, Option.isSome_iff_exists.mpr ⟨r, h⟩⟩)
    obtain ⟨y, hy, hys⟩ := List.exists_of_findSome?_eq_some hs
    by_cases heq : y = x
    · rw [hs, ← hys, heq, h]
    · rw [others y hy heq] at hys
      cases hys

theorem Propagated.markStale {selected : Attestation → Bool} {reason : StaleReason} :
    Propagated db (db.markStale selected reason) where
  cases := rfl
  assessments := rfl
  entries := rfl
  versions := rfl
  rows a ha := by
    have ha : a ∈ db.attestations.update (fun a => a.state = .active && selected a)
        (Attestation.goStale reason) fun _ => rfl := ha
    obtain ⟨b, hb, rfl⟩ := (Table.mem_update _).mp ha
    split
    next hchosen =>
      refine ⟨b, hb, rfl, .inr ⟨?_, ⟨reason, rfl⟩, fun target => ?_⟩⟩
      · simp only [Bool.and_eq_true, decide_eq_true_eq] at hchosen
        exact hchosen.1
      · rw [signalOf_markStale]
        congr 1
        refine findSome?_of_unique (List.mem_map_of_mem (List.mem_filter.mpr ⟨hb, hchosen⟩)) ?_
        intro c hc hne
        obtain ⟨d, hd, rfl⟩ := List.mem_map.mp hc
        refine find?_signalsOf_of_ne target fun hid => hne ?_
        rw [Table.eq_of_key (List.mem_filter.mp hd).1 hb hid]
    next hkept =>
      refine ⟨b, hb, rfl, .inl ⟨rfl, fun target => ?_⟩⟩
      rw [signalOf_markStale, List.findSome?_eq_none_iff.mpr, Option.or_none]
      intro c hc
      obtain ⟨d, hd, rfl⟩ := List.mem_map.mp hc
      obtain ⟨hmem, hchosen⟩ := List.mem_filter.mp hd
      refine find?_signalsOf_of_ne target fun hid => hkept ?_
      exact Table.eq_of_key hmem hb hid ▸ hchosen

theorem Propagated.foldl {ι : Type} {rows : List ι} {selected : ι → Attestation → Bool}
    {reason : ι → StaleReason} :
    Propagated db (rows.foldl (fun db x => db.markStale (selected x) (reason x)) db) := by
  induction rows generalizing db with
  | nil => exact .refl db
  | cons x rows ih => exact Propagated.markStale.trans ih

theorem Propagated.propagateSchema (new : Schema) : Propagated db (db.propagateSchema new) := by
  unfold Db.propagateSchema
  split
  · exact .markStale
  · split
    · exact .foldl
    · exact .refl db

/-- What the triggers do does not depend on what rests below. -/
theorem Propagated.of_basis {basis : Basis} (h : Propagated { db with toBasis := basis } next) :
    Propagated db next :=
  ⟨h.cases, h.assessments, h.entries, h.versions, h.rows⟩

/-! ## Requests -/

theorem Propagated.updateCredential (id : Uuid) (change : Credential → Credential)
    (keeps : ∀ c, (change c).id = c.id) : Propagated db (db.updateCredential id change keeps) := by
  unfold Db.updateCredential
  split
  · exact .refl db
  · split
    · exact ⟨rfl, rfl, rfl, rfl, (Propagated.refl db).rows⟩
    · exact Propagated.markStale.of_basis

/-- No attestation goes stale by another way. -/
def StaleBefore (before after : Db) : Prop :=
  ∀ a ∈ after.attestations, a.state = .staleCandidate →
    ∃ b ∈ before.attestations, b.id = a.id ∧ b.state = .staleCandidate

theorem StaleBefore.rows (h : next.attestations = db.attestations) : StaleBefore db next :=
  fun a ha hstale => ⟨a, h ▸ ha, rfl, hstale⟩

theorem StaleBefore.trans (first : StaleBefore db db') (second : StaleBefore db' next) :
    StaleBefore db next := by
  intro a ha hstale
  obtain ⟨c, hc, hcid, hcstale⟩ := second a ha hstale
  obtain ⟨b, hb, hbid, hbstale⟩ := first c hc hcstale
  exact ⟨b, hb, hbid.trans hcid, hbstale⟩

theorem StaleBefore.setAttestation (id : Uuid) {change : Attestation → Attestation}
    (keeps : ∀ a, (change a).id = a.id) (hstate : ∀ a, (change a).state ≠ .staleCandidate) :
    StaleBefore db (db.setAttestation id change keeps) := by
  intro a ha hstale
  have ha : a ∈ db.attestations.update (·.id = id) change keeps := ha
  obtain ⟨b, hb, hid, rfl | ⟨-, rfl⟩⟩ := Table.exists_of_mem_update keeps ha
  · exact ⟨_, hb, rfl, hstale⟩
  · exact absurd hstale (hstate b)

theorem StaleBefore.setState (id : Uuid) {state : AttestationState}
    (hstate : state ≠ .staleCandidate) : StaleBefore db (db.setState id state) :=
  .setAttestation id _ fun _ => hstate

theorem StaleBefore.supersedePredecessor {predecessorId : Uuid}
    (hok : supersedePredecessor db predecessorId = .ok next) : StaleBefore db next := by
  unfold Staleness.supersedePredecessor at hok
  split at hok
  · cases hok
  · obtain ⟨-, hok⟩ := guard_ok.mp hok
    cases hok
    exact .setState _ (by decide)

theorem StaleBefore.insertRow {new : Attestation} {attestations : Table Attestation.id}
    (hok : insertRow db.attestations new = .ok attestations) (hstate : new.state ≠ .staleCandidate) :
    StaleBefore db { db with attestations } := by
  obtain ⟨-, hok⟩ := guard_ok.mp hok
  cases hok
  intro a ha hstale
  rcases Table.mem_insertIfAbsent.mp ha with ha | ⟨rfl, -⟩
  · exact ⟨a, ha, rfl, hstale⟩
  · exact absurd hstale hstate

/-- A request changes attestations by triggers, or makes none stale. -/
theorem handle_cases {request : Request} (hok : db.handle request = .ok next) :
    Propagated db next ∨ StaleBefore db next := by
  cases request with
  | staleClaim id =>
    cases hok
    unfold Db.staleClaim
    split
    · exact .inl Propagated.markStale.of_basis
    · exact .inl (.refl db)
  | changeCredentialStatus id status =>
    simp only [Db.handle] at hok
    split at hok
    · cases hok
    · obtain ⟨-, hok⟩ := guard_ok.mp hok
      cases hok
      exact .inl (.updateCredential id _ _)
  | correctExpiry id expiresAt =>
    cases hok
    exact .inl (.updateCredential id _ _)
  | sweepCredentialExpiry =>
    cases hok
    exact .inl Propagated.foldl.of_basis
  | addSchema id schemaKey schemaVersion jurisdictionProfile state =>
    obtain ⟨schemas, -, rfl⟩ := map_ok.mp hok
    exact .inl (Propagated.propagateSchema _).of_basis
  | changeSchema id state =>
    simp only [Db.handle] at hok
    split at hok
    · cases hok
    · split at hok
      · cases hok
        exact .inl (.refl db)
      · cases hok
        exact .inl (Propagated.propagateSchema _).of_basis
  | draft id caseId credentialId claimScope supersedesId =>
    simp only [Db.handle] at hok
    split at hok
    · split at hok
      · cases hok
      · obtain ⟨-, hok⟩ := guard_ok.mp hok
        obtain ⟨-, hok⟩ := guard_ok.mp hok
        obtain ⟨-, hok⟩ := guard_ok.mp hok
        obtain ⟨attestations, hattestations, rfl⟩ := map_ok.mp hok
        exact .inr (.insertRow hattestations (by simp))
    · cases hok
  | sign attestationId =>
    simp only [Db.handle] at hok
    split at hok
    · cases hok
    · obtain ⟨-, hok⟩ := guard_ok.mp hok
      obtain ⟨-, hok⟩ := guard_ok.mp hok
      split at hok
      · cases hok
        exact .inr (.setAttestation attestationId _ fun _ h => by cases h)
      · refine .inr (StaleBefore.trans ?_ (.supersedePredecessor hok))
        exact .setAttestation attestationId _ fun _ h => by cases h
  | dispute id attestationId =>
    simp only [Db.handle] at hok
    split at hok
    · cases hok
    · obtain ⟨-, hok⟩ := guard_ok.mp hok
      obtain ⟨disputes, -, rfl⟩ := map_ok.mp hok
      exact .inr (StaleBefore.setState attestationId (by decide))
  | resolveDispute disputeId outcome =>
    simp only [Db.handle] at hok
    split at hok
    · cases hok
    · obtain ⟨-, hok⟩ := guard_ok.mp hok
      cases hok
      split
      · exact .inr (StaleBefore.setState _ (by decide))
      · exact .inr (.rows rfl)
  | revoke attestationId =>
    simp only [Db.handle] at hok
    split at hok
    · cases hok
    · obtain ⟨-, hok⟩ := guard_ok.mp hok
      cases hok
      exact .inr (.setState attestationId (by decide))
  | addClaim id | addCredential id expiresAt | generateAssessment id projectId gateId policySetId
  | addEntry id registryType subjectId
  | addPolicySet id ruleSetId ruleSetVersion jurisdictionProfile effectiveFrom state =>
    obtain ⟨_, -, rfl⟩ := map_ok.mp hok
    exact .inr (.rows rfl)
  | changePolicySet id state =>
    simp only [Db.handle] at hok
    split at hok
    · cases hok
    · split at hok <;> cases hok <;> exact .inr (.rows rfl)
  | openCase id projectId schemaId claimIds | publishVersion id entryId =>
    obtain ⟨-, hok⟩ := guard_ok.mp hok
    obtain ⟨_, -, rfl⟩ := map_ok.mp hok
    exact .inr (.rows rfl)
  | revokeVersion id =>
    cases hok
    exact .inr (.rows rfl)
  | closeSignal key resolution =>
    simp only [Db.handle] at hok
    split at hok
    · cases hok
    · obtain ⟨-, hok⟩ := guard_ok.mp hok
      obtain ⟨-, hok⟩ := guard_ok.mp hok
      cases hok
      exact .inr (.rows rfl)

theorem take_cases {taken : Instant × Request} (hok : db.take taken = .ok next) :
    Propagated db next ∨ StaleBefore db next := by
  rcases handle_cases hok with h | h
  · exact .inl ⟨h.cases, h.assessments, h.entries, h.versions, h.rows⟩
  · exact .inr h

/-! ## Signals at the end of a transaction -/

theorem Propagated.targets (h : Propagated db next) (projectId : Uuid) :
    next.targets projectId = db.targets projectId := by
  unfold Db.targets Db.isLatestOfGate
  rw [h.assessments, h.entries, h.versions]

/-- The targets that are signalled: all but the assessments that are not the newest. -/
theorem exists_mem_signalsOf_iff {case_ : Case} (hcase : db.cases.lookup a.caseId = some case_)
    {target : TargetType × Uuid} (htarget : target ∈ db.targets case_.projectId) :
    (∃ s ∈ db.signalsOf a, s.key = (target.1, target.2, .attestation a.id)) ↔
      target.1 = .complianceAssessment →
        ∃ x, db.latestAssessment case_.projectId = some x ∧ x.id = target.2 := by
  unfold Db.signalsOf
  rw [hcase]
  constructor
  · intro ⟨s, hs, hkey⟩ hassessment
    rcases List.mem_append.mp hs with hs | hs
    · obtain ⟨x, hx, rfl⟩ := Option.mem_map.mp (Option.mem_toList.mp hs)
      exact ⟨x, hx, congrArg (·.2.1) hkey⟩
    · obtain ⟨v, -, rfl⟩ := List.mem_map.mp hs
      have htype : TargetType.registryEntryVersion = target.1 := congrArg (·.1) hkey
      rw [hassessment] at htype
      cases htype
  · intro hlatest
    rcases List.mem_append.mp htarget with htarget | htarget
    · obtain ⟨x, -, rfl⟩ := List.mem_map.mp htarget
      obtain ⟨y, hy, hid⟩ := hlatest rfl
      refine ⟨_, List.mem_append_left _ (Option.mem_toList.mpr (Option.mem_map.mpr ⟨y, hy, rfl⟩)), ?_⟩
      exact congrArg (fun id => (TargetType.complianceAssessment, id, SignalOrigin.attestation a.id)) hid
    · obtain ⟨v, hv, rfl⟩ := List.mem_map.mp htarget
      obtain ⟨hmem, hpublished⟩ := List.mem_filter.mp hv
      refine ⟨_, List.mem_append_right _ (List.mem_map.mpr ⟨v, List.mem_filter.mpr ⟨hmem, ?_⟩, rfl⟩), rfl⟩
      simp only [Bool.and_eq_true, List.any_eq_true, Bool.or_eq_true] at hpublished ⊢
      obtain ⟨hstatus, e, he, hentry⟩ := hpublished
      exact ⟨hstatus, e, he, hentry.1.1, .inl ⟨hentry.1.2, hentry.2⟩⟩

theorem mem_of_latestAssessment {projectId : Uuid} {x : Assessment}
    (h : db.latestAssessment projectId = some x) : x ∈ db.assessments := by
  have hmem := List.mem_of_mem_head? h
  rw [List.mem_insertionSort] at hmem
  exact (List.mem_filter.mp hmem).1

theorem exists_of_mem_targets {projectId : Uuid} {target : TargetType × Uuid}
    (h : target ∈ db.targets projectId) (htype : target.1 = .complianceAssessment) :
    ∃ x ∈ db.assessments, x.projectId = projectId ∧ db.isLatestOfGate x = true ∧
      (.complianceAssessment, x.id) = target := by
  rcases List.mem_append.mp h with h | h
  · obtain ⟨x, hx, rfl⟩ := List.mem_map.mp h
    obtain ⟨hmem, hlatest⟩ := List.mem_filter.mp hx
    simp only [Bool.and_eq_true, decide_eq_true_eq] at hlatest
    exact ⟨x, hmem, hlatest.1, hlatest.2, rfl⟩
  · obtain ⟨v, -, rfl⟩ := List.mem_map.mp h
    cases htype

/-- After it went stale an attestation's signals are those from before and the new ones. -/
theorem exists_signalOf_iff (target : TargetType × Uuid) (hactive : Follows db next b a)
    (hbecomes : a.state = .staleCandidate ∧ b.state ≠ .staleCandidate) :
    (∃ s ∈ next.signalOf a.id target, s.resolution = .open) ↔
      (∃ s ∈ db.signalOf a.id target, s.resolution = .open) ∨
        db.signalOf a.id target = none ∧
          ∃ s ∈ db.signalsOf a, s.key = (target.1, target.2, .attestation a.id) := by
  obtain ⟨rfl, -⟩ | ⟨-, ⟨reason, rfl⟩, hsignals⟩ := hactive
  · exact absurd hbecomes.1 hbecomes.2
  · have hid : (b.goStale reason).id = b.id := rfl
    rw [hid, hsignals target]
    cases db.signalOf b.id target with
    | some s => simp
    | none =>
      rw [Option.none_or]
      constructor
      · intro ⟨s, hs, _⟩
        exact .inr ⟨rfl, s, List.mem_of_find?_eq_some hs, by simpa using List.find?_some hs⟩
      · rintro (⟨s, hs, -⟩ | ⟨-, s, hs, hkey⟩)
        · cases hs
        · cases hfind : (db.signalsOf (b.goStale reason)).find? fun s =>
              s.key = (target.1, target.2, .attestation b.id) with
          | none => exact absurd (decide_eq_true hkey) (List.find?_eq_none.mp hfind s hs)
          | some found =>
            exact ⟨found, rfl, (origin_of_mem_signalsOf (List.mem_of_find?_eq_some hfind)).2⟩

/-- An attestation of a project with a published version, dismissed of its first dispute. -/
def published : List (Instant × Request) :=
  [(0, .addSchema 1 (units "schema") (units "1") (units "CH") .active), (0, .addClaim 2),
    (0, .addCredential 3 none), (0, .openCase 4 5 1 [2]), (0, .draft 6 4 3 [2] none), (0, .sign 6),
    (0, .addEntry 8 .project 5), (0, .publishVersion 9 8), (0, .dispute 7 6),
    (0, .resolveDispute 7 .dismissed)]

def versionSignal : TargetType × Uuid × SignalOrigin := (.registryEntryVersion, 9, .attestation 6)

end MpcRegistry.Staleness
