import MpcRegistry.Staleness.Propagation

/-!
# What an active attestation rests on

The triggers move the attestations that are active at the moment of a change. A change
beside an attestation that is signed, under re-review or disputed moves nothing, and the
dismissal of its last dispute makes it active on what its basis has become; the policies
it was signed under have no trigger for it at all. While neither happens, no active
attestation rests on a stale basis.
-/
namespace MpcRegistry.Staleness
open Library Outcome

/-! ## Fresh bases -/

/-- The credential is valid. A date that passes is seen by the sweep, one that is given
in the past at once. -/
def Credential.Stands (sweptAt : Instant) (c : Credential) : Prop :=
  c.currentStatus = .valid ∧ c.revokedAt = none ∧ ∀ t ∈ c.expiresAt.toList, max sweptAt c.datedAt < t

instance (sweptAt : Instant) (c : Credential) : Decidable (c.Stands sweptAt) :=
  inferInstanceAs (Decidable (_ ∧ _ ∧ _))

/-- Nothing the attestation rests on is stale: no claim of its scope, not its credential, and
no version it was signed under was superseded or retired since. -/
structure Fresh (basis : Basis) (a : Attestation) : Prop where
  claims : ∀ c ∈ basis.claims.rows, c.id ∈ a.claimScope → c.staleSince = none
  credential : ∀ c ∈ basis.credentials.rows, c.id = a.credentialId → c.Stands basis.sweptAt
  schema : ∀ s ∈ basis.schemas.rows, s.id = a.schemaId → ∀ t ∈ s.endedAt.toList, t ≤ a.signedAt
  policies : ∀ p ∈ basis.policySets.rows, p.id ∈ a.policyVersion →
    ∀ t ∈ p.endedAt.toList, t ≤ a.signedAt

instance (basis : Basis) (a : Attestation) : Decidable (Fresh basis a) :=
  decidable_of_iff (_ ∧ _ ∧ _ ∧ _)
    ⟨fun ⟨claims, credential, schema, policies⟩ => ⟨claims, credential, schema, policies⟩,
    fun h => ⟨h.claims, h.credential, h.schema, h.policies⟩⟩

/-- No active attestation rests on a stale basis. -/
def Db.BasesFresh (db : Db) : Prop :=
  ∀ a ∈ db.attestations.rows, a.state = .active → Fresh db.toBasis a

instance (db : Db) : Decidable db.BasesFresh :=
  inferInstanceAs (Decidable (∀ a ∈ db.attestations.rows, _ → _))

/-- The last dispute of an attestation is dismissed only while its basis is fresh, and no
policy set is superseded or retired that an active attestation was signed under. -/
def KeepsBases (db : Db) (taken : Instant × Request) : Prop :=
  match taken.2 with
  | .resolveDispute disputeId .dismissed => ∀ d ∈ db.disputes.rows, d.id = disputeId →
      (∀ other ∈ db.unresolved d.attestationId, other.id = disputeId) →
      ∀ a ∈ db.attestations.rows, a.id = d.attestationId → a.state = .disputed →
        Fresh db.toBasis a
  | .changePolicySet id state => state = .superseded ∨ state = .retired →
      ∀ a ∈ db.attestations.rows, a.state = .active → id ∉ a.policyVersion
  | _ => True

instance (db : Db) (taken : Instant × Request) : Decidable (KeepsBases db taken) := by
  unfold KeepsBases
  split <;> infer_instance

/-! ## Attestations and what they refer to -/

/-- What an attestation refers to exists. -/
structure Linked (basis : Basis) (a : Attestation) : Prop where
  credential : ∃ c ∈ basis.credentials, c.id = a.credentialId
  schema : ∃ s ∈ basis.schemas, s.id = a.schemaId
  policies : ∀ id ∈ a.policyVersion, ∃ p ∈ basis.policySets, p.id = id

structure Invariant (db : Db) : Prop where
  swept : db.sweptAt ≤ db.now
  dated : ∀ c ∈ db.credentials, c.datedAt ≤ db.now
  linked : ∀ a ∈ db.attestations, Linked db.toBasis a
  fresh : ∀ a ∈ db.attestations, a.state = .active → Fresh db.toBasis a

variable {db db' : Db} {basis basis' : Basis} {a b : Attestation} {selected : Attestation → Prop}

/-- The attestation refers to the same, and is moved if it was active and selected. -/
structure Marked (selected : Attestation → Prop) (b a : Attestation) : Prop where
  credentialId : a.credentialId = b.credentialId
  schemaId : a.schemaId = b.schemaId
  policyVersion : a.policyVersion = b.policyVersion
  spared : a.state = .active → a = b ∧ ¬ selected b

theorem Linked.marked (h : Linked basis b) (marked : Marked selected b a) : Linked basis a where
  credential := marked.credentialId ▸ h.credential
  schema := marked.schemaId ▸ h.schema
  policies := marked.policyVersion ▸ h.policies

theorem exists_of_mem_markStale {selected : Attestation → Bool} {reason : StaleReason}
    (ha : a ∈ (db.markStale selected reason).attestations) :
    ∃ b ∈ db.attestations, Marked (selected · = true) b a := by
  have ha : a ∈ db.attestations.update (fun a => a.state = .active && selected a)
      (Attestation.goStale reason) fun _ => rfl := ha
  obtain ⟨b, hb, rfl⟩ := (Table.mem_update _).mp ha
  refine ⟨b, hb, ?_⟩
  split
  next => exact ⟨rfl, rfl, rfl, fun hactive => by cases hactive⟩
  next hkept =>
    refine ⟨rfl, rfl, rfl, fun hactive => ⟨rfl, fun hselected => hkept ?_⟩⟩
    simp [hactive, hselected]

section Fold

variable {ι : Type} {rows : List ι} {selected : ι → Attestation → Bool} {reason : ι → StaleReason}

theorem foldl_markStale_basis :
    (rows.foldl (fun db x => db.markStale (selected x) (reason x)) db).toBasis = db.toBasis := by
  induction rows generalizing db with
  | nil => rfl
  | cons x rows ih => exact ih

theorem foldl_markStale_now :
    (rows.foldl (fun db x => db.markStale (selected x) (reason x)) db).now = db.now := by
  induction rows generalizing db with
  | nil => rfl
  | cons x rows ih => exact ih

theorem exists_of_mem_foldl_markStale
    (ha : a ∈ (rows.foldl (fun db x => db.markStale (selected x) (reason x)) db).attestations) :
    ∃ b ∈ db.attestations, Marked (fun b => ∃ x ∈ rows, selected x b = true) b a := by
  induction rows generalizing db with
  | nil => exact ⟨a, ha, rfl, rfl, rfl, fun _ => ⟨rfl, by simp⟩⟩
  | cons x rows ih =>
    obtain ⟨c, hc, hlater⟩ := ih ha
    obtain ⟨b, hb, hfirst⟩ := exists_of_mem_markStale hc
    refine ⟨b, hb, hlater.credentialId.trans hfirst.credentialId,
      hlater.schemaId.trans hfirst.schemaId, hlater.policyVersion.trans hfirst.policyVersion,
      fun hactive => ?_⟩
    obtain ⟨rfl, hrest⟩ := hlater.spared hactive
    obtain ⟨rfl, hhead⟩ := hfirst.spared hactive
    refine ⟨rfl, fun ⟨y, hy, hselected⟩ => ?_⟩
    rcases List.mem_cons.mp hy with rfl | hy
    · exact hhead hselected
    · exact hrest ⟨y, hy, hselected⟩

end Fold

/-- A change of the basis that moves what rests on it. -/
theorem Invariant.rebase (h : Invariant db) (selected : Attestation → Prop) (swept : db'.sweptAt ≤ db'.now)
    (dated : ∀ c ∈ db'.credentials, c.datedAt ≤ db'.now)
    (rows : ∀ a ∈ db'.attestations, ∃ b ∈ db.attestations, Marked selected b a)
    (linked : ∀ b, Linked db.toBasis b → Linked db'.toBasis b)
    (fresh : ∀ b ∈ db.attestations, b.state = .active → ¬ selected b → Fresh db'.toBasis b) :
    Invariant db' where
  swept := swept
  dated := dated
  linked a ha := by
    obtain ⟨b, hb, hmarked⟩ := rows a ha
    exact (linked b (h.linked b hb)).marked hmarked
  fresh a ha hactive := by
    obtain ⟨b, hb, hmarked⟩ := rows a ha
    obtain ⟨rfl, hspared⟩ := hmarked.spared hactive
    exact fresh a hb hactive hspared

/-- A request on attestations alone. -/
theorem Invariant.rows (h : Invariant db) (basis : db'.toBasis = db.toBasis) (now : db'.now = db.now)
    (linked : ∀ a ∈ db'.attestations, Linked db.toBasis a)
    (fresh : ∀ a ∈ db'.attestations, a.state = .active → Fresh db.toBasis a) : Invariant db' where
  swept := by rw [basis, now]; exact h.swept
  dated := by rw [basis, now]; exact h.dated
  linked := by rw [basis]; exact linked
  fresh := by rw [basis]; exact fresh

/-- A request that touches neither. -/
theorem Invariant.quiet (h : Invariant db) (basis : db'.toBasis = db.toBasis) (now : db'.now = db.now)
    (rows : db'.attestations = db.attestations) : Invariant db' :=
  h.rows basis now (rows ▸ h.linked) (rows ▸ h.fresh)

/-! ## Requests that change the basis -/

theorem marked_refl (hnone : ¬ selected a) : Marked selected a a :=
  ⟨rfl, rfl, rfl, fun _ => ⟨rfl, hnone⟩⟩

theorem insertRow_ok {ρ κ : Type} [DecidableEq κ] {key : ρ → κ} {t u : Table key} {row : ρ} :
    insertRow t row = .ok u ↔ t.lookup (key row) = none ∧ t.insertIfAbsent row = u := by
  unfold insertRow
  rw [guard_ok, Except.ok.injEq, Bool.not_eq_true, Option.isSome_eq_false_iff, Option.isNone_iff_eq_none]

/-- A row added under a new key is none that something refers to. -/
theorem ne_of_fresh {ρ κ : Type} [DecidableEq κ] {key : ρ → κ} {t : Table key} {row : ρ} {k : κ}
    (fresh : t.lookup (key row) = none) (exists_ : ∃ r ∈ t, key r = k) : key row ≠ k := by
  obtain ⟨r, hr, rfl⟩ := exists_
  intro hkey
  unfold Table.lookup at fresh
  have := List.find?_eq_none.mp fresh r hr
  simp [hkey] at this

theorem mem_insertIfAbsent_cases {ρ κ : Type} [DecidableEq κ] {key : ρ → κ} {t : Table key}
    {row r : ρ} (hr : r ∈ (t.insertIfAbsent row).rows) : r ∈ t.rows ∨ r = row := by
  rcases Table.mem_insertIfAbsent.mp hr with hr | ⟨rfl, -⟩
  · exact .inl hr
  · exact .inr rfl

theorem Invariant.tick (h : Invariant db) {now : Instant} (later : db.now ≤ now) :
    Invariant { db with now } where
  swept := h.swept.trans later
  dated c hc := (h.dated c hc).trans later
  linked := h.linked
  fresh := h.fresh

theorem Invariant.addClaim (h : Invariant db) {id : Uuid} {claims : Table Claim.id}
    (hclaims : insertRow db.claims { id, staleSince := none } = .ok claims) :
    Invariant { db with claims } := by
  obtain ⟨-, rfl⟩ := insertRow_ok.mp hclaims
  refine h.rebase (fun _ => False) h.swept h.dated (fun a ha => ⟨a, ha, marked_refl not_false⟩)
    (fun b hb => ⟨hb.credential, hb.schema, hb.policies⟩) fun b hb hactive _ => ?_
  have hfresh := h.fresh b hb hactive
  refine ⟨fun c hc hscope => ?_, hfresh.credential, hfresh.schema, hfresh.policies⟩
  rcases mem_insertIfAbsent_cases hc with hc | rfl
  · exact hfresh.claims c hc hscope
  · rfl

theorem Invariant.staleClaim (h : Invariant db) (id : Uuid) : Invariant (db.staleClaim id) := by
  unfold Db.staleClaim
  split
  · refine h.rebase (fun b => id ∈ b.claimScope) h.swept h.dated (fun a ha => ?_)
      (fun b hb => ⟨hb.credential, hb.schema, hb.policies⟩) fun b hb hactive hspared => ?_
    · simpa using exists_of_mem_markStale ha
    · have hfresh := h.fresh b hb hactive
      refine ⟨fun c hc hscope => ?_, hfresh.credential, hfresh.schema, hfresh.policies⟩
      have hc : c ∈ db.claims.update (·.id = id) (fun c => { c with staleSince := some db.now })
          fun _ => rfl := hc
      obtain ⟨r, hr, hid, hkept | ⟨hchosen, -⟩⟩ := Table.exists_of_mem_update _ hc
      · exact hfresh.claims c (hkept ▸ hr) hscope
      · -- the claim that has gone stale is not in the scope of what was spared
        have hr : r.id = id := by simpa using hchosen
        exact absurd (hr ▸ hid ▸ hscope) hspared
  · exact h

theorem Invariant.addCredential (h : Invariant db) {id : Uuid} {expiresAt : Option Instant}
    {credentials : Table Credential.id}
    (hcredentials : insertRow db.credentials
      { id, currentStatus := .valid, expiresAt, revokedAt := none, datedAt := db.now } =
        .ok credentials) : Invariant { db with credentials } := by
  obtain ⟨hnew, rfl⟩ := insertRow_ok.mp hcredentials
  refine h.rebase (fun _ => False) h.swept (fun c hc => ?_)
    (fun a ha => ⟨a, ha, marked_refl not_false⟩) (fun b hb => ?_) fun b hb hactive _ => ?_
  · rcases mem_insertIfAbsent_cases hc with hc | rfl
    · exact h.dated c hc
    · exact le_refl _
  · obtain ⟨c, hc, hid⟩ := hb.credential
    exact ⟨⟨c, Table.mem_insertIfAbsent_of_mem hc, hid⟩, hb.schema, hb.policies⟩
  · have hfresh := h.fresh b hb hactive
    refine ⟨hfresh.claims, fun c hc hid => ?_, hfresh.schema, hfresh.policies⟩
    rcases mem_insertIfAbsent_cases hc with hc | rfl
    · exact hfresh.credential c hc hid
    · exact absurd hid (ne_of_fresh hnew (h.linked b hb).credential)

/-- What the trigger sees no cause in leaves a valid credential valid. -/
theorem Credential.Stands.of_cause_none {sweptAt now : Instant} {old new : Credential}
    (h : old.Stands sweptAt) (swept : sweptAt ≤ now) (dated : new.datedAt ≤ now)
    (undated : new.expiresAt = old.expiresAt → new.datedAt = old.datedAt)
    (hcause : Db.credentialCause now old new = none) : new.Stands sweptAt := by
  obtain ⟨hvalid, hkept, hlater⟩ := h
  unfold Db.credentialCause at hcause
  split at hcause
  · cases hcause
  next hstatus =>
    split at hcause
    · cases hcause
    next hrevoked =>
      split at hcause
      · cases hcause
      next hexpired =>
        refine ⟨?_, ?_, fun t ht => ?_⟩
        · by_contra hnot
          exact hstatus ⟨hnot, by rw [hvalid]; exact hnot⟩
        · by_contra hnot
          exact hrevoked ⟨Option.isSome_iff_ne_none.mpr hnot, by simp [hkept]⟩
        · have ht : new.expiresAt = some t := by simpa using ht
          by_cases hsame : new.expiresAt = old.expiresAt
          · rw [undated hsame]
            exact hlater t (by rw [← hsame, ht]; simp)
          · have : ¬ t ≤ now := fun hpast => hexpired ⟨by simp [ht, hpast], hsame⟩
            exact (max_le swept dated).trans_lt (lt_of_not_ge this)

theorem Invariant.updateCredential (h : Invariant db) (id : Uuid) {change : Credential → Credential}
    (keeps : ∀ c, (change c).id = c.id)
    (dated : ∀ c, (change c).datedAt = c.datedAt ∨ (change c).datedAt = db.now)
    (undated : ∀ c, (change c).expiresAt = c.expiresAt → (change c).datedAt = c.datedAt) :
    Invariant (db.updateCredential id change keeps) := by
  unfold Db.updateCredential
  split
  · exact h
  next old hold =>
    obtain ⟨hmem, hid⟩ := Table.lookup_eq_some.mp hold
    have hdated : ∀ c ∈ db.credentials.update (·.id = id) change keeps, c.datedAt ≤ db.now := by
      intro c hc
      obtain ⟨r, hr, -, rfl | ⟨-, rfl⟩⟩ := Table.exists_of_mem_update keeps hc
      · exact h.dated _ hr
      · rcases dated r with hkept | hnow
        · exact hkept ▸ h.dated r hr
        · exact hnow ▸ le_refl _
    have hlinked : ∀ b, Linked db.toBasis b →
        Linked { db.toBasis with credentials := db.credentials.update (·.id = id) change keeps } b :=
      fun b hb => ⟨(Table.exists_key_update keeps).mpr hb.credential, hb.schema, hb.policies⟩
    split
    next hcause =>
      refine h.rebase (fun _ => False) h.swept hdated
        (fun a ha => ⟨a, ha, marked_refl not_false⟩) hlinked fun b hb hactive _ => ?_
      have hfresh := h.fresh b hb hactive
      refine ⟨hfresh.claims, fun c hc hbid => ?_, hfresh.schema, hfresh.policies⟩
      obtain ⟨r, hr, hrid, rfl | ⟨hchosen, rfl⟩⟩ := Table.exists_of_mem_update keeps hc
      · exact hfresh.credential _ hr hbid
      · have hrid' : r.id = id := by simpa using hchosen
        obtain rfl : r = old := Table.eq_of_key hr hmem (hrid'.trans hid.symm)
        refine (hfresh.credential r hr (hrid.trans hbid)).of_cause_none h.swept ?_ (undated r) hcause
        exact hdated _ hc
    next cause hcause =>
      refine h.rebase (fun b => b.credentialId = id) h.swept hdated (fun a ha => ?_)
        hlinked fun b hb hactive hspared => ?_
      · simpa using exists_of_mem_markStale ha
      · have hfresh := h.fresh b hb hactive
        refine ⟨hfresh.claims, fun c hc hbid => ?_, hfresh.schema, hfresh.policies⟩
        obtain ⟨r, hr, hrid, rfl | ⟨hchosen, -⟩⟩ := Table.exists_of_mem_update keeps hc
        · exact hfresh.credential _ hr hbid
        · have hrid' : r.id = id := by simpa using hchosen
          exact absurd (hbid.symm.trans (hrid.symm.trans hrid')) hspared

theorem Invariant.sweepCredentialExpiry (h : Invariant db) : Invariant db.sweepCredentialExpiry := by
  unfold Db.sweepCredentialExpiry
  refine h.rebase
    (fun b => ∃ c ∈ db.credentials.rows.filter fun c => c.expiresAt.any (· ≤ db.now),
      decide (b.credentialId = c.id) = true) ?_ ?_ (fun a ha => exists_of_mem_foldl_markStale ha) ?_ ?_
  · rw [foldl_markStale_basis, foldl_markStale_now]
  · rw [foldl_markStale_basis, foldl_markStale_now]
    exact h.dated
  · rw [foldl_markStale_basis]
    exact fun b hb => ⟨hb.credential, hb.schema, hb.policies⟩
  · rw [foldl_markStale_basis]
    intro b hb hactive hspared
    have hfresh := h.fresh b hb hactive
    refine ⟨hfresh.claims, fun c hc hid => ?_, hfresh.schema, hfresh.policies⟩
    obtain ⟨hvalid, hkept, -⟩ := hfresh.credential c hc hid
    refine ⟨hvalid, hkept, fun t ht => ?_⟩
    -- a date that has passed would have been swept
    have : ¬ t ≤ db.now := by
      intro hpast
      have ht : c.expiresAt = some t := by simpa using ht
      exact hspared ⟨c, List.mem_filter.mpr ⟨hc, by simp [ht, hpast]⟩, by simp [hid]⟩
    exact (max_le (le_refl db.now) (h.dated c hc)).trans_lt (lt_of_not_ge this)

/-! ### Schemas and policy sets -/

theorem Marked.weaken {fewer : Attestation → Prop} (h : Marked selected b a)
    (himp : fewer b → selected b) : Marked fewer b a :=
  ⟨h.credentialId, h.schemaId, h.policyVersion, fun hactive =>
    ⟨(h.spared hactive).1, fun hfewer => (h.spared hactive).2 (himp hfewer)⟩⟩

theorem propagateSchema_basis (new : Schema) : (db.propagateSchema new).toBasis = db.toBasis := by
  unfold Db.propagateSchema
  split
  · rfl
  · split
    · exact foldl_markStale_basis
    · rfl

theorem propagateSchema_now (new : Schema) : (db.propagateSchema new).now = db.now := by
  unfold Db.propagateSchema
  split
  · rfl
  · split
    · exact foldl_markStale_now
    · rfl

/-- A version superseded or retired moves what was signed under it. -/
def EndsSchema (new : Schema) (b : Attestation) : Prop :=
  (new.state = .superseded ∨ new.state = .retired) ∧ b.schemaId = new.id

theorem exists_of_mem_propagateSchema {new : Schema}
    (ha : a ∈ (db.propagateSchema new).attestations) :
    ∃ b ∈ db.attestations, Marked (EndsSchema new) b a := by
  unfold Db.propagateSchema at ha
  split at ha
  · obtain ⟨b, hb, hmarked⟩ := exists_of_mem_markStale ha
    exact ⟨b, hb, hmarked.weaken fun hends => decide_eq_true hends.2⟩
  next hstands =>
    split at ha
    · obtain ⟨b, hb, hmarked⟩ := exists_of_mem_foldl_markStale ha
      exact ⟨b, hb, hmarked.weaken fun hends => absurd hends.1 hstands⟩
    · exact ⟨a, ha, marked_refl fun hends => hstands hends.1⟩

theorem Invariant.addSchema (h : Invariant db) {new : Schema} {schemas : Table Schema.id}
    (hschemas : insertRow db.schemas new = .ok schemas) :
    Invariant (({ db with schemas }).propagateSchema new) := by
  obtain ⟨hnew, rfl⟩ := insertRow_ok.mp hschemas
  refine h.rebase (EndsSchema new) ?_ ?_ ?_ ?_ ?_
  · rw [propagateSchema_basis, propagateSchema_now]
    exact h.swept
  · rw [propagateSchema_basis, propagateSchema_now]
    exact h.dated
  · intro a ha
    obtain ⟨b, hb, hmarked⟩ := exists_of_mem_propagateSchema ha
    exact ⟨b, hb, hmarked⟩
  · rw [propagateSchema_basis]
    intro b hb
    obtain ⟨s, hs, hid⟩ := hb.schema
    exact ⟨hb.credential, ⟨s, Table.mem_insertIfAbsent_of_mem hs, hid⟩, hb.policies⟩
  · rw [propagateSchema_basis]
    intro b hb hactive _
    have hfresh := h.fresh b hb hactive
    refine ⟨hfresh.claims, hfresh.credential, fun s hs hid => ?_, hfresh.policies⟩
    rcases mem_insertIfAbsent_cases hs with hs | rfl
    · exact hfresh.schema s hs hid
    · exact absurd hid (ne_of_fresh hnew (h.linked b hb).schema)

theorem Invariant.changeSchema (h : Invariant db) {id : Uuid} {state : SchemaState} {old : Schema}
    (hold : db.schemas.lookup id = some old) :
    Invariant (({ db with
      schemas := db.schemas.update (·.id = id) (Schema.setState state db.now)
        (Schema.id_setState state db.now) }).propagateSchema (old.setState state db.now)) := by
  obtain ⟨-, hid⟩ := Table.lookup_eq_some.mp hold
  refine h.rebase (EndsSchema (old.setState state db.now)) ?_ ?_ ?_ ?_ ?_
  · rw [propagateSchema_basis, propagateSchema_now]
    exact h.swept
  · rw [propagateSchema_basis, propagateSchema_now]
    exact h.dated
  · intro a ha
    obtain ⟨b, hb, hmarked⟩ := exists_of_mem_propagateSchema ha
    exact ⟨b, hb, hmarked⟩
  · rw [propagateSchema_basis]
    intro b hb
    refine ⟨hb.credential, ?_, hb.policies⟩
    exact (Table.exists_key_update (Schema.id_setState state db.now)).mpr hb.schema
  · rw [propagateSchema_basis]
    intro b hb hactive hspared
    have hfresh := h.fresh b hb hactive
    refine ⟨hfresh.claims, hfresh.credential, fun s hs hbid => ?_, hfresh.policies⟩
    have hs : s ∈ db.schemas.update (·.id = id) (Schema.setState state db.now)
        (Schema.id_setState state db.now) := hs
    obtain ⟨r, hr, hrid, hkept | ⟨hchosen, rfl⟩⟩ := Table.exists_of_mem_update _ hs
    · exact hfresh.schema s (hkept ▸ hr) hbid
    · have hrid' : r.id = id := by simpa using hchosen
      by_cases hends : state = .superseded ∨ state = .retired
      · exact absurd ⟨hends, hbid.symm.trans (hrid.symm.trans (hrid'.trans hid.symm))⟩ hspared
      · have : (r.setState state db.now).endedAt = r.endedAt := if_neg hends
        rw [this]
        exact hfresh.schema r hr (hrid.trans hbid)

theorem Invariant.addPolicySet (h : Invariant db) {new : PolicySet} {signals : List Signal}
    {policySets : Table PolicySet.id} (hpolicySets : insertRow db.policySets new = .ok policySets) :
    Invariant (({ db with policySets }).insertSignals signals) := by
  obtain ⟨hnew, rfl⟩ := insertRow_ok.mp hpolicySets
  refine h.rebase (fun _ => False) h.swept h.dated
    (fun a ha => ⟨a, ha, marked_refl not_false⟩) (fun b hb => ?_) fun b hb hactive _ => ?_
  · refine ⟨hb.credential, hb.schema, fun id hid => ?_⟩
    obtain ⟨p, hp, hpid⟩ := hb.policies id hid
    exact ⟨p, Table.mem_insertIfAbsent_of_mem hp, hpid⟩
  · have hfresh := h.fresh b hb hactive
    refine ⟨hfresh.claims, hfresh.credential, hfresh.schema, fun p hp hid => ?_⟩
    rcases mem_insertIfAbsent_cases hp with hp | rfl
    · exact hfresh.policies p hp hid
    · exact absurd rfl (ne_of_fresh hnew ((h.linked b hb).policies _ hid))

theorem Invariant.changePolicySet (h : Invariant db) {id : Uuid} {state : PolicyState}
    {signals : List Signal}
    (spares : state = .superseded ∨ state = .retired →
      ∀ a ∈ db.attestations.rows, a.state = .active → id ∉ a.policyVersion) :
    Invariant (({ db with
      policySets := db.policySets.update (·.id = id) (PolicySet.setState state db.now)
        (PolicySet.id_setState state db.now) }).insertSignals signals) := by
  refine h.rebase (fun _ => False) h.swept h.dated
    (fun a ha => ⟨a, ha, marked_refl not_false⟩) (fun b hb => ?_) fun b hb hactive _ => ?_
  · refine ⟨hb.credential, hb.schema, fun used hused => ?_⟩
    exact (Table.exists_key_update (PolicySet.id_setState state db.now)).mpr
      (hb.policies used hused)
  · have hfresh := h.fresh b hb hactive
    refine ⟨hfresh.claims, hfresh.credential, hfresh.schema, fun p hp hid => ?_⟩
    have hp : p ∈ db.policySets.update (·.id = id) (PolicySet.setState state db.now)
        (PolicySet.id_setState state db.now) := hp
    obtain ⟨r, hr, hrid, hkept | ⟨hchosen, rfl⟩⟩ := Table.exists_of_mem_update _ hp
    · exact hfresh.policies p (hkept ▸ hr) hid
    · have hrid' : r.id = id := by simpa using hchosen
      by_cases hends : state = .superseded ∨ state = .retired
      · exact absurd (hrid' ▸ hid) (spares hends b hb hactive)
      · have : (r.setState state db.now).endedAt = r.endedAt := if_neg hends
        rw [this]
        exact hfresh.policies r hr hid

/-! ## Requests on attestations -/

theorem Fresh.setState (h : Fresh basis a) (state : AttestationState) :
    Fresh basis { a with state } :=
  ⟨h.claims, h.credential, h.schema, h.policies⟩

theorem Linked.setState (h : Linked basis a) (state : AttestationState) :
    Linked basis { a with state } :=
  ⟨h.credential, h.schema, h.policies⟩

theorem Invariant.setAttestation (h : Invariant db) {id : Uuid} {change : Attestation → Attestation}
    (keeps : ∀ a, (change a).id = a.id)
    (linked : ∀ a ∈ db.attestations, a.id = id → Linked db.toBasis (change a))
    (fresh : ∀ a ∈ db.attestations, a.id = id → (change a).state = .active →
      Fresh db.toBasis (change a)) : Invariant (db.setAttestation id change keeps) := by
  refine h.rows rfl rfl (fun a ha => ?_) fun a ha hactive => ?_
  all_goals
    have ha : a ∈ db.attestations.update (·.id = id) change keeps := ha
    obtain ⟨r, hr, -, rfl | ⟨hchosen, rfl⟩⟩ := Table.exists_of_mem_update keeps ha
  · exact h.linked _ hr
  · exact linked r hr (by simpa using hchosen)
  · exact h.fresh _ hr hactive
  · exact fresh r hr (by simpa using hchosen) hactive

theorem Invariant.setState (h : Invariant db) {id : Uuid} {state : AttestationState}
    (fresh : state = .active → ∀ a ∈ db.attestations, a.id = id → Fresh db.toBasis a) :
    Invariant (db.setState id state) :=
  h.setAttestation _ (fun a ha _ => (h.linked a ha).setState state)
    fun a ha hid hactive => (fresh hactive a ha hid).setState state

theorem Linked.of_policiesInForce {caseSchema : Uuid} {p : Uuid}
    (hp : p ∈ db.policiesInForce caseSchema) : ∃ q ∈ db.policySets, q.id = p := by
  unfold Db.policiesInForce at hp
  split at hp
  · cases hp
  · obtain ⟨q, hq, rfl⟩ := List.mem_map.mp hp
    exact ⟨q, (List.mem_filter.mp hq).1, rfl⟩

theorem exists_of_lookup {ρ κ : Type} [DecidableEq κ] {key : ρ → κ} {t : Table key} {k : κ} {r : ρ}
    (h : t.lookup k = some r) : ∃ s ∈ t, key s = k := by
  obtain ⟨hr, hk⟩ := Table.lookup_eq_some.mp h
  exact ⟨r, hr, hk⟩

theorem Invariant.draft (h : Invariant db) {new : Attestation} {attestations : Table Attestation.id}
    (hattestations : insertRow db.attestations new = .ok attestations) (hdraft : new.state = .draft)
    (hlinked : Linked db.toBasis new) : Invariant { db with attestations } := by
  obtain ⟨-, rfl⟩ := insertRow_ok.mp hattestations
  refine h.rows rfl rfl (fun a ha => ?_) fun a ha hactive => ?_
  all_goals rcases mem_insertIfAbsent_cases ha with ha | rfl
  · exact h.linked a ha
  · exact hlinked
  · exact h.fresh a ha hactive
  · simp [hdraft] at hactive

theorem Invariant.sign (h : Invariant db) (id schemaId : Uuid) :
    Invariant (db.setAttestation id (Attestation.sign (db.policiesInForce schemaId) db.now)
      fun _ => rfl) := by
  refine h.setAttestation _ (fun a ha hid => ?_) fun a ha hid hactive => ?_
  · have hlinked := h.linked a ha
    exact ⟨hlinked.credential, hlinked.schema, fun p hp => Linked.of_policiesInForce hp⟩
  · cases hactive

theorem Invariant.supersedePredecessor (h : Invariant db) {predecessorId : Uuid}
    (hok : supersedePredecessor db predecessorId = .ok db') : Invariant db' := by
  unfold Staleness.supersedePredecessor at hok
  split at hok
  · cases hok
  · obtain ⟨-, hok⟩ := guard_ok.mp hok
    cases hok
    exact h.setState fun hactive => by cases hactive

/-- Of the disputes that are open, the one resolved was the last if none is left. -/
theorem eq_of_unresolved_nil {disputeId attestationId : Uuid} {outcome : DisputeOutcome}
    (hlast : ({ db with
      disputes := db.disputes.update (·.id = disputeId)
        (fun d => { d with resolution := some outcome }) fun _ => rfl }).unresolved attestationId = [])
    {other : Dispute} (hother : other ∈ db.unresolved attestationId) : other.id = disputeId := by
  obtain ⟨hmem, hopen⟩ := List.mem_filter.mp hother
  by_contra hne
  have hkept : other ∈ db.disputes.update (·.id = disputeId)
      (fun d => { d with resolution := some outcome }) fun _ => rfl :=
    (Table.mem_update _).mpr ⟨other, hmem, if_neg (by simpa using hne)⟩
  exact List.filter_eq_nil_iff.mp hlast other hkept hopen

theorem Invariant.handle (h : Invariant db) {taken : Instant × Request}
    (keeps : KeepsBases db taken) (hok : db.handle taken.2 = .ok db') : Invariant db' := by
  obtain ⟨elapsed, request⟩ := taken
  cases request with
  | addClaim id =>
    obtain ⟨claims, hclaims, rfl⟩ := map_ok.mp hok
    exact h.addClaim hclaims
  | staleClaim id =>
    cases hok
    exact h.staleClaim id
  | addCredential id expiresAt =>
    obtain ⟨credentials, hcredentials, rfl⟩ := map_ok.mp hok
    exact h.addCredential hcredentials
  | changeCredentialStatus id status =>
    simp only [Db.handle] at hok
    split at hok
    · cases hok
    · obtain ⟨-, hok⟩ := guard_ok.mp hok
      cases hok
      exact h.updateCredential id _ (fun _ => .inl rfl) fun _ _ => rfl
  | correctExpiry id expiresAt =>
    cases hok
    refine h.updateCredential id _ (fun c => ?_) fun c hsame => ?_
    all_goals unfold Credential.correctExpiry at *
    · split
      · exact .inl rfl
      · exact .inr rfl
    · split at hsame
      next heq => rw [if_pos heq]
      next hne => exact absurd hsame hne
  | sweepCredentialExpiry =>
    cases hok
    exact h.sweepCredentialExpiry
  | addSchema id schemaKey schemaVersion jurisdictionProfile state =>
    obtain ⟨schemas, hschemas, rfl⟩ := map_ok.mp hok
    exact h.addSchema hschemas
  | changeSchema id state =>
    simp only [Db.handle] at hok
    split at hok
    · cases hok
    next old hold =>
      split at hok
      · cases hok
        exact h
      · cases hok
        exact h.changeSchema hold
  | addPolicySet id ruleSetId ruleSetVersion jurisdictionProfile effectiveFrom state =>
    obtain ⟨policySets, hpolicySets, rfl⟩ := map_ok.mp hok
    exact h.addPolicySet hpolicySets
  | changePolicySet id state =>
    simp only [Db.handle] at hok
    split at hok
    · cases hok
    · split at hok
      · cases hok
        exact h
      · cases hok
        exact h.changePolicySet keeps
  | openCase id projectId schemaId claimIds =>
    obtain ⟨-, hok⟩ := guard_ok.mp hok
    obtain ⟨cases, -, rfl⟩ := map_ok.mp hok
    exact h.quiet rfl rfl rfl
  | draft id caseId credentialId claimScope supersedesId =>
    simp only [Db.handle] at hok
    split at hok
    next case_ credential hcase hcredential =>
      split at hok
      · cases hok
      next schema hschema =>
        obtain ⟨-, hok⟩ := guard_ok.mp hok
        obtain ⟨-, hok⟩ := guard_ok.mp hok
        obtain ⟨-, hok⟩ := guard_ok.mp hok
        obtain ⟨attestations, hattestations, rfl⟩ := map_ok.mp hok
        refine h.draft hattestations rfl ⟨?_, ?_, fun p hp => Linked.of_policiesInForce hp⟩
        · exact exists_of_lookup hcredential
        · exact exists_of_lookup hschema
    next => cases hok
  | sign attestationId =>
    simp only [Db.handle] at hok
    split at hok
    · cases hok
    next attestation hattestation =>
      obtain ⟨-, hok⟩ := guard_ok.mp hok
      obtain ⟨-, hok⟩ := guard_ok.mp hok
      split at hok
      · cases hok
        exact h.sign attestationId attestation.schemaId
      · exact (h.sign attestationId attestation.schemaId).supersedePredecessor hok
  | dispute id attestationId =>
    simp only [Db.handle] at hok
    split at hok
    · cases hok
    · obtain ⟨-, hok⟩ := guard_ok.mp hok
      obtain ⟨disputes, -, rfl⟩ := map_ok.mp hok
      have hfiled : Invariant { db with disputes } := h.quiet rfl rfl rfl
      exact hfiled.setState fun hactive => by cases hactive
  | resolveDispute disputeId outcome =>
    simp only [Db.handle] at hok
    split at hok
    · cases hok
    next dispute hdispute =>
      obtain ⟨-, hok⟩ := guard_ok.mp hok
      cases hok
      have hresolved : Invariant { db with
          disputes := db.disputes.update (·.id = disputeId)
            (fun d => { d with resolution := some outcome }) fun _ => rfl } :=
        h.quiet rfl rfl rfl
      split
      next hlast =>
        obtain ⟨rfl, hnone, hdisputed⟩ := hlast
        obtain ⟨hmem, hid⟩ := Table.lookup_eq_some.mp hdispute
        refine hresolved.setState fun _ a ha haid => ?_
        refine keeps dispute hmem hid (fun other hother => eq_of_unresolved_nil hnone hother) a ha
          haid ?_
        rw [Table.lookup_eq_some.mpr ⟨ha, haid⟩] at hdisputed
        simpa using hdisputed
      · exact hresolved
  | revoke attestationId =>
    simp only [Db.handle] at hok
    split at hok
    · cases hok
    · obtain ⟨-, hok⟩ := guard_ok.mp hok
      cases hok
      exact h.setState fun hactive => by cases hactive
  | generateAssessment id projectId gateId policySetId =>
    obtain ⟨assessments, -, rfl⟩ := map_ok.mp hok
    exact h.quiet rfl rfl rfl
  | addEntry id registryType subjectId =>
    obtain ⟨entries, -, rfl⟩ := map_ok.mp hok
    exact h.quiet rfl rfl rfl
  | publishVersion id entryId =>
    obtain ⟨-, hok⟩ := guard_ok.mp hok
    obtain ⟨versions, -, rfl⟩ := map_ok.mp hok
    exact h.quiet rfl rfl rfl
  | revokeVersion id =>
    cases hok
    exact h.quiet rfl rfl rfl
  | closeSignal key resolution =>
    simp only [Db.handle] at hok
    split at hok
    · cases hok
    · obtain ⟨-, hok⟩ := guard_ok.mp hok
      obtain ⟨-, hok⟩ := guard_ok.mp hok
      cases hok
      exact h.quiet rfl rfl rfl

theorem invariant_empty : Invariant Db.empty where
  swept := le_refl _
  dated _ hc := absurd hc (Table.not_mem_empty _)
  linked _ ha := absurd ha (Table.not_mem_empty _)
  fresh _ ha := absurd ha (Table.not_mem_empty _)

/-- An attestation over one claim, signed and disputed. -/
def disputed : List (Instant × Request) :=
  [(0, .addSchema 1 (units "schema") (units "1") (units "CH") .active), (0, .addClaim 2),
    (0, .addCredential 3 none), (0, .openCase 4 5 1 [2]), (0, .draft 6 4 3 [2] none), (0, .sign 6),
    (0, .dispute 7 6)]

end MpcRegistry.Staleness
