import MpcRegistry.Verification.CaseStates

/-!
# Attestations under dispute

A resolution counts the open disputes of its attestation, without a lock on it, and sets it
active when it dismisses the last one. The count says nothing of disputes that were upheld,
and another dispute or resolution can overtake it.
-/
namespace MpcRegistry.Verification
open Library WriteSet ReadCommitted Utf16

/-! ## What is kept -/

def Dispute.dismissed (row : Dispute) : Bool := row.resolution.any (·.outcome = .dismissed)

/-- The dispute is one of the attestation. -/
def Dispute.Of (row : Dispute) (attestation : Attestation) : Prop :=
  row.attestationId = attestation.id

/-- An attestation with a dispute that is open or upheld is out of standing, and one whose
disputes are all dismissed is back in it, unless it has come to its end. -/
structure Settled (rows : Table Row.key) : Prop where
  known : ∀ dispute, .dispute dispute ∈ rows →
    ∃ attestation, .attestation attestation ∈ rows ∧ dispute.Of attestation
  questioned : ∀ attestation, .attestation attestation ∈ rows → ∀ dispute, .dispute dispute ∈ rows →
    dispute.Of attestation → dispute.dismissed = false →
      attestation.state = .disputed ∨ attestation.state ∈ AttestationState.final
  restored : ∀ attestation, .attestation attestation ∈ rows →
    (∃ dispute, .dispute dispute ∈ rows ∧ dispute.Of attestation) →
    (∀ dispute, .dispute dispute ∈ rows → dispute.Of attestation → dispute.dismissed = true) →
      attestation.state = .active ∨ attestation.state ∈ AttestationState.final

/-- Settled but for one attestation. -/
structure SettledBesides (rows : Table Row.key) (id : Uuid) : Prop where
  known : ∀ dispute, .dispute dispute ∈ rows →
    ∃ attestation, .attestation attestation ∈ rows ∧ dispute.Of attestation
  questioned : ∀ attestation, .attestation attestation ∈ rows → attestation.id ≠ id →
    ∀ dispute, .dispute dispute ∈ rows → dispute.Of attestation → dispute.dismissed = false →
      attestation.state = .disputed ∨ attestation.state ∈ AttestationState.final
  restored : ∀ attestation, .attestation attestation ∈ rows → attestation.id ≠ id →
    (∃ dispute, .dispute dispute ∈ rows ∧ dispute.Of attestation) →
    (∀ dispute, .dispute dispute ∈ rows → dispute.Of attestation → dispute.dismissed = true) →
      attestation.state = .active ∨ attestation.state ∈ AttestationState.final

/-! ## Writes -/

/-- A write that is no dispute's: of another table, a new draft, or a change that leaves the
attestation as it is, signs it or ends it. -/
inductive Harmless : Write Row → Prop where
  | other (write : Write Row) (attestation : write.new.attestation? = none)
      (dispute : write.new.dispute? = none) : Harmless write
  | draft (row : Attestation) (draft : row.state = .draft) : Harmless ⟨none, .attestation row⟩
  | sign (old new : Attestation) (unsigned : old.state = .draft ∨ old.state = .signed)
      (signed : new.state = .signed) : Harmless ⟨some (.attestation old), .attestation new⟩
  | final (old new : Attestation) (final : new.state ∈ AttestationState.final) :
      Harmless ⟨some (.attestation old), .attestation new⟩

/-- The resolution of a dispute. -/
def Dispute.resolve (row : Dispute) (resolution : Resolution) : Dispute :=
  { row with resolution := some resolution }

def resolved (dispute : Dispute) (resolution : Resolution) : Write Row :=
  ⟨some (.dispute dispute), .dispute (dispute.resolve resolution)⟩

/-- A dispute is raised and its attestation with it. -/
def Disputes (writes : List (Write Row)) : Prop :=
  ∃ dispute attestation, dispute.Of attestation ∧ dispute.resolution = none ∧
    attestation.state ∉ AttestationState.final ∧
    writes = [⟨none, .dispute dispute⟩,
      ⟨some (.attestation attestation), .attestation (attestation.enter .disputed)⟩]

/-- A dispute is resolved and its attestation, if it has not come to its end, activated when
none is left. -/
def Resolves (rows : Table Row.key) (dispute : Dispute) (outcome : DisputeOutcome)
    (remaining : Nat) (resolution : Resolution) (writes : List (Write Row)) : Prop :=
  writes = [resolved dispute resolution] ∧
      (outcome = .dismissed → remaining = 0 → ∀ attestation, .attestation attestation ∈ rows →
        dispute.Of attestation → attestation.state ∈ AttestationState.final) ∨
    ∃ attestation, dispute.Of attestation ∧ attestation.state = .disputed ∧
      outcome = .dismissed ∧ remaining = 0 ∧
      writes = [resolved dispute resolution,
        ⟨some (.attestation attestation), .attestation (attestation.enter .active)⟩]

/-- What a transaction has written, by its stage. -/
def Written (rows : Table Row.key) (writes : List (Write Row)) : Stage → Prop
  | .idle => writes = []
  | .begun _ _ => writes = []
  | .disputeResolved dispute outcome => dispute.resolution = none ∧
      ∃ resolution, resolution.outcome = outcome ∧ writes = [resolved dispute resolution]
  | .disputesCounted dispute outcome _ => dispute.resolution = none ∧
      ∃ resolution, resolution.outcome = outcome ∧ writes = [resolved dispute resolution]
  | .disputeSettled dispute outcome remaining => dispute.resolution = none ∧
      ∃ resolution, resolution.outcome = outcome ∧
        Resolves rows dispute outcome remaining resolution writes
  | .done => (∀ write ∈ writes, Harmless write) ∨ Disputes writes
  | _ => ∀ write ∈ writes, Harmless write

/-! ## The condition -/

/-- A signature is written on a draft, or again on what is signed, and nothing that is
active is marked stale. -/
def Stage.disturbsNone (db : Db) : Stage → Bool
  | .accepted submission => (db.attestation? submission.attestation.id).all fun row =>
      row.state = .draft || row.state = .signed
  | .begun (.staleClaim claimId) _ => (db.activeOver claimId).isEmpty
  | .begun (.correctClaim claimId _ _) _ => (db.activeOver claimId).isEmpty
  | .begun (.staleAttestations ids) _ => (db.rows.rows.filterMap Row.attestation?).all fun row =>
      row.state ≠ .active || row.id ∉ ids
  | _ => true

/-- Every other dispute of the attestation is dismissed. -/
def Db.othersDismissed (db : Db) (dispute : Dispute) : Bool :=
  (db.rows.rows.filterMap Row.dispute?).all fun other =>
    other.attestationId ≠ dispute.attestationId || other.id = dispute.id || other.dismissed

/-- A dismissal counts no open dispute exactly if the others are dismissed. -/
def Stage.countsRight (db : Db) : Stage → Bool
  | .disputeSettled dispute .dismissed remaining => remaining = 0 ↔ db.othersDismissed dispute
  | _ => true

section Rows

variable {rows : Table Row.key} {write : Write Row} {writes : List (Write Row)} {db : Db}
  {attestation : Attestation} {dispute : Dispute} {resolution : Resolution}

theorem Settled.not_of_unsigned (h : Settled rows) (hmem : .attestation attestation ∈ rows)
    (unsigned : attestation.state = .draft ∨ attestation.state = .signed) :
    ∀ dispute, .dispute dispute ∈ rows → ¬ dispute.Of attestation := by
  intro dispute hdispute hof
  have hnot : ¬ (attestation.state = .active ∨ attestation.state ∈ AttestationState.final) ∧
      ¬ (attestation.state = .disputed ∨ attestation.state ∈ AttestationState.final) := by
    rcases unsigned with hstate | hstate <;> simp [hstate, AttestationState.final]
  by_cases hall : ∀ other, .dispute other ∈ rows → other.Of attestation → other.dismissed = true
  · exact hnot.1 (h.restored _ hmem ⟨dispute, hdispute, hof⟩ hall)
  · push Not at hall
    obtain ⟨other, hother, hof', hdismissed⟩ := hall
    exact hnot.2 (h.questioned _ hmem other hother hof' (by simpa using hdismissed))

theorem dispute_mem_put_attestation : .dispute dispute ∈ rows.put (.attestation attestation) ↔
    .dispute dispute ∈ rows := by
  simp [Table.mem_put, Row.key]

theorem attestation_mem_put {other : Attestation} :
    .attestation other ∈ rows.put (.attestation attestation) ↔
      other = attestation ∨ .attestation other ∈ rows ∧ other.id ≠ attestation.id := by
  simp [Table.mem_put, Row.key]

theorem attestation_mem_put_dispute : .attestation attestation ∈ rows.put (.dispute dispute) ↔
    .attestation attestation ∈ rows := by
  simp [Table.mem_put, Row.key]

theorem dispute_mem_put {other : Dispute} : .dispute other ∈ rows.put (.dispute dispute) ↔
    other = dispute ∨ .dispute other ∈ rows ∧ other.id ≠ dispute.id := by
  simp [Table.mem_put, Row.key]

theorem Settled.besides (h : Settled rows) (id : Uuid) : SettledBesides rows id :=
  ⟨h.known, fun row hrow _ => h.questioned row hrow, fun row hrow _ => h.restored row hrow⟩

/-- An attestation is written as its disputes ask for. -/
theorem SettledBesides.putAttestation (h : SettledBesides rows attestation.id)
    (questioned : ∀ dispute, .dispute dispute ∈ rows → dispute.Of attestation →
      dispute.dismissed = false → attestation.state = .disputed ∨
        attestation.state ∈ AttestationState.final)
    (restored : (∃ dispute, .dispute dispute ∈ rows ∧ dispute.Of attestation) →
      (∀ dispute, .dispute dispute ∈ rows → dispute.Of attestation → dispute.dismissed = true) →
        attestation.state = .active ∨ attestation.state ∈ AttestationState.final) :
    Settled (rows.put (.attestation attestation)) where
  known dispute hdispute := by
    obtain ⟨old, hold, hof⟩ := h.known dispute (dispute_mem_put_attestation.mp hdispute)
    by_cases hsame : old.id = attestation.id
    · exact ⟨attestation, attestation_mem_put.mpr (.inl rfl), hof.trans hsame⟩
    · exact ⟨old, attestation_mem_put.mpr (.inr ⟨hold, hsame⟩), hof⟩
  questioned other hother dispute hdispute := by
    rw [dispute_mem_put_attestation] at hdispute
    rcases attestation_mem_put.mp hother with rfl | ⟨hother, hne⟩
    · exact questioned dispute hdispute
    · exact h.questioned other hother hne dispute hdispute
  restored other hother := by
    simp only [dispute_mem_put_attestation]
    rcases attestation_mem_put.mp hother with rfl | ⟨hother, hne⟩
    · exact restored
    · exact h.restored other hother hne

/-- A dispute is raised or resolved: only its own attestation may be unsettled. -/
theorem Settled.putDispute (h : Settled rows)
    (known : ∃ attestation, .attestation attestation ∈ rows ∧ dispute.Of attestation)
    (same : ∀ old, .dispute old ∈ rows → old.id = dispute.id →
      old.attestationId = dispute.attestationId) :
    SettledBesides (rows.put (.dispute dispute)) dispute.attestationId where
  known other hother := by
    simp only [attestation_mem_put_dispute]
    rcases dispute_mem_put.mp hother with rfl | ⟨hother, -⟩
    · exact known
    · exact h.known other hother
  questioned row hrow hne other hother hof hdismissed := by
    rw [attestation_mem_put_dispute] at hrow
    rcases dispute_mem_put.mp hother with rfl | ⟨hother, -⟩
    · exact absurd hof.symm hne
    · exact h.questioned row hrow other hother hof hdismissed
  restored row hrow hne hexists hall := by
    rw [attestation_mem_put_dispute] at hrow
    refine h.restored row hrow ?_ fun other hother hof =>
      hall other (dispute_mem_put.mpr (.inr ⟨hother, fun hid => ?_⟩)) hof
    · obtain ⟨other, hother, hof⟩ := hexists
      rcases dispute_mem_put.mp hother with rfl | ⟨hother, -⟩
      · exact absurd hof.symm hne
      · exact ⟨other, hother, hof⟩
    · exact hne (hof.symm.trans (same other hother hid))

theorem Settled.congr {rows' : Table Row.key} (h : Settled rows)
    (attestations : ∀ row, .attestation row ∈ rows' ↔ .attestation row ∈ rows)
    (disputes : ∀ row, .dispute row ∈ rows' ↔ .dispute row ∈ rows) : Settled rows' := by
  constructor
  · simpa only [attestations, disputes] using h.known
  · simpa only [attestations, disputes] using h.questioned
  · simpa only [attestations, disputes] using h.restored

theorem ne_key_of_other {row : Row} {attestation : Attestation} (other : row.attestation? = none) :
    Row.key (.attestation attestation) ≠ row.key := by
  intro hkey
  cases row with
  | attestation => cases other
  | _ => cases congrArg Prod.fst hkey

theorem ne_key_of_undisputing {row : Row} {dispute : Dispute} (other : row.dispute? = none) :
    Row.key (.dispute dispute) ≠ row.key := by
  intro hkey
  cases row with
  | dispute => cases other
  | _ => cases congrArg Prod.fst hkey

theorem Settled.harmless (h : Settled rows) (found : rows.lookup write.new.key = write.old)
    (harmless : Harmless write) : Settled (rows.put write.new) := by
  cases harmless with
  | other _ hattestation hdispute =>
    refine h.congr (fun row => ?_) fun row => ?_
    · rw [Table.mem_put]
      refine ⟨fun hrow => ?_, fun hrow => .inr ⟨hrow, fun hkey => ?_⟩⟩
      · rcases hrow with hrow | ⟨hrow, -⟩
        · simp [← hrow, Row.attestation?] at hattestation
        · exact hrow
      · exact ne_key_of_other hattestation hkey
    · rw [Table.mem_put]
      refine ⟨fun hrow => ?_, fun hrow => .inr ⟨hrow, fun hkey => ?_⟩⟩
      · rcases hrow with hrow | ⟨hrow, -⟩
        · simp [← hrow, Row.dispute?] at hdispute
        · exact hrow
      · exact ne_key_of_undisputing hdispute hkey
  | draft row hdraft =>
    have hnone : ∀ dispute, .dispute dispute ∈ rows → ¬ dispute.Of row := by
      intro dispute hdispute hof
      obtain ⟨old, hold, hof'⟩ := h.known dispute hdispute
      refine Table.lookup_eq_none.mp found _ hold ?_
      rw [Row.key, Row.key, ← hof', ← hof]
    exact (h.besides _).putAttestation (fun dispute hdispute hof => absurd hof (hnone dispute hdispute))
      fun disputed => disputed.elim fun dispute h => absurd h.2 (hnone dispute h.1)
  | sign old new hunsigned hsigned =>
    obtain ⟨hold, hkey⟩ := Table.lookup_eq_some.mp found
    have hid : old.id = new.id := congrArg Prod.snd hkey
    have hnone : ∀ dispute, .dispute dispute ∈ rows → ¬ dispute.Of new := fun dispute hdispute hof =>
      h.not_of_unsigned hold hunsigned dispute hdispute (hof.trans hid.symm)
    exact (h.besides _).putAttestation (fun dispute hdispute hof => absurd hof (hnone dispute hdispute))
      fun disputed => disputed.elim fun dispute h => absurd h.2 (hnone dispute h.1)
  | final old new hfinal =>
    exact (h.besides _).putAttestation (fun _ _ _ _ => .inr hfinal) fun _ _ => .inr hfinal

theorem Settled.putAll_harmless (h : Settled rows) (fits : Fits rows writes)
    (harmless : ∀ write ∈ writes, Harmless write) : Settled (putAll rows writes) := by
  induction writes generalizing rows with
  | nil => exact h
  | cons write rest ih =>
    exact ih (h.harmless fits.1 (harmless write List.mem_cons_self)) fits.2
      fun other hother => harmless other (List.mem_cons_of_mem _ hother)

theorem Settled.putAll_disputes (h : Settled rows) (fits : Fits rows writes)
    (disputes : Disputes writes) : Settled (putAll rows writes) := by
  obtain ⟨dispute, attestation, hof, hopen, -, rfl⟩ := disputes
  have hattestation : .attestation attestation ∈ rows :=
    attestation_mem_put_dispute.mp (Table.lookup_eq_some.mp fits.2.1).1
  have hbesides : SettledBesides (rows.put (.dispute dispute)) attestation.id := by
    rw [← hof]
    refine h.putDispute ⟨attestation, hattestation, hof⟩ fun old hold hid => ?_
    exact absurd (congrArg (Prod.mk _) hid) (Table.lookup_eq_none.mp fits.1 _ hold)
  have hbesides' : SettledBesides (rows.put (.dispute dispute)) (attestation.enter .disputed).id :=
    hbesides
  refine hbesides'.putAttestation (fun _ _ _ _ => .inl rfl) fun _ hall => ?_
  have hdismissed := hall dispute (dispute_mem_put.mpr (.inl rfl)) hof
  simp [Dispute.dismissed, hopen] at hdismissed

theorem Settled.putAll_resolves {outcome : DisputeOutcome} {remaining : Nat} (h : Settled rows)
    (fits : Fits rows writes) (unresolved : dispute.resolution = none)
    (resolves : Resolves rows dispute outcome remaining resolution writes)
    (houtcome : resolution.outcome = outcome)
    (right : outcome = .dismissed → (remaining = 0 ↔ ∀ other, .dispute other ∈ rows →
      other.attestationId = dispute.attestationId → other.id ≠ dispute.id →
        other.dismissed = true)) : Settled (putAll rows writes) := by
  have hopen : dispute.dismissed = false := by simp [Dispute.dismissed, unresolved]
  have hfound : .dispute dispute ∈ rows := by
    rcases resolves with ⟨rfl, -⟩ | ⟨_, -, -, -, -, rfl⟩
    · exact (Table.lookup_eq_some.mp fits.1).1
    · exact (Table.lookup_eq_some.mp fits.1).1
  have hbesides : SettledBesides (rows.put (.dispute (dispute.resolve resolution)))
      dispute.attestationId := by
    refine h.putDispute (h.known dispute hfound) fun old hold hid => ?_
    have hkey : Row.key (.dispute old) = Row.key (.dispute dispute) := congrArg (Prod.mk _) hid
    have hsame : Row.dispute old = .dispute dispute := Table.eq_of_key hold hfound hkey
    rw [Row.dispute.inj hsame]
    rfl
  have hothers : outcome = .dismissed → remaining = 0 → ∀ other,
      .dispute other ∈ rows.put (.dispute (dispute.resolve resolution)) →
        other.attestationId = dispute.attestationId → other.dismissed = true := by
    intro hdismissed hnone other hother hof
    rcases dispute_mem_put.mp hother with rfl | ⟨hother, hne⟩
    · simp [Dispute.dismissed, Dispute.resolve, houtcome, hdismissed]
    · exact (right hdismissed).mp hnone other hother hof hne
  rcases resolves with ⟨rfl, hfinal⟩ | ⟨attestation, hof, hdisputed, hdismissed, hnone, rfl⟩
  · constructor
    · exact hbesides.known
    · intro row hrow other hother hof hundismissed
      rw [putAll_cons, putAll_nil] at hrow hother
      by_cases hsame : row.id = dispute.attestationId
      · exact h.questioned row (attestation_mem_put_dispute.mp hrow) dispute hfound hsame.symm hopen
      · exact hbesides.questioned row hrow hsame other hother hof hundismissed
    · intro row hrow hexists hall
      rw [putAll_cons, putAll_nil] at hrow hexists hall
      by_cases hsame : row.id = dispute.attestationId
      · have hmine := hall _ (dispute_mem_put.mpr (.inl rfl)) hsame.symm
        have hdismissed : outcome = .dismissed := by
          simpa [Dispute.dismissed, Dispute.resolve, houtcome] using hmine
        refine .inr (hfinal hdismissed ((right hdismissed).mpr fun other hother hof hne => ?_) row
          (attestation_mem_put_dispute.mp hrow) hsame.symm)
        exact hall other (dispute_mem_put.mpr (.inr ⟨hother, hne⟩)) (hof.trans hsame.symm)
      · exact hbesides.restored row hrow hsame hexists hall
  · have hbesides' : SettledBesides (rows.put (.dispute (dispute.resolve resolution)))
        (attestation.enter .active).id := by
      rw [hof] at hbesides
      exact hbesides
    refine hbesides'.putAttestation (fun other hother hof' hundismissed => ?_) fun _ _ => .inl rfl
    rw [hothers hdismissed hnone other hother (hof'.trans hof.symm)] at hundismissed
    cases hundismissed

/-- An attestation that has come to its end is left so. -/
def StaysFinal (before after : Row) : Prop :=
  ∀ row, before = .attestation row → ∃ later, after = .attestation later ∧
    (row.state ∈ AttestationState.final → later.state ∈ AttestationState.final)

theorem StaysFinal.refl (row : Row) : StaysFinal row row := fun row hrow => ⟨row, hrow, id⟩

theorem StaysFinal.trans {a b c : Row} (h : StaysFinal a b) (h' : StaysFinal b c) :
    StaysFinal a c := by
  intro row hrow
  obtain ⟨between, hbetween, hfinal⟩ := h row hrow
  obtain ⟨later, hlater, hfinal'⟩ := h' between hbetween
  exact ⟨later, hlater, hfinal' ∘ hfinal⟩

theorem Harmless.staysFinal (h : Harmless write) (hkey : ∀ old ∈ write.old, old.key = write.new.key) :
    ∀ old ∈ write.old, StaysFinal old write.new := by
  cases h with
  | other write hattestation hdispute =>
    intro old hold row hrow
    have hsame := hkey old hold
    rw [hrow] at hsame
    revert hattestation hsame
    cases write.new <;> simp [Row.key, Row.attestation?]
  | draft row hdraft =>
    intro old hold
    cases hold
  | sign old new hunsigned hsigned =>
    intro _ hold row hrow
    cases hold
    cases hrow
    refine ⟨new, rfl, fun hfinal => ?_⟩
    rcases hunsigned with hstate | hstate <;> simp [hstate, AttestationState.final] at hfinal
  | final old new hfinal =>
    intro _ hold row hrow
    cases hold
    cases hrow
    exact ⟨new, rfl, fun _ => hfinal⟩

/-- Whatever a transaction has written, it leaves final attestations final. -/
theorem Written.staysFinal {stage : Stage} (h : Written rows writes stage) {before : Table Row.key}
    (fits : Fits before writes) : ∀ write ∈ writes, ∀ old ∈ write.old, StaysFinal old write.new := by
  have hharmless : (∀ write ∈ writes, Harmless write) →
      ∀ write ∈ writes, ∀ old ∈ write.old, StaysFinal old write.new :=
    fun h write hwrite => (h write hwrite).staysFinal (fits.old_key write hwrite)
  have hresolved : ∀ {dispute : Dispute} {resolution : Resolution},
      ∀ old ∈ (resolved dispute resolution).old, StaysFinal old (resolved dispute resolution).new := by
    intro dispute resolution _ hold row hrow
    cases hold
    cases hrow
  have hresolution : ∀ {dispute : Dispute} {resolution : Resolution},
      writes = [resolved dispute resolution] →
        ∀ write ∈ writes, ∀ old ∈ write.old, StaysFinal old write.new := by
    rintro dispute resolution rfl write hwrite
    rw [List.mem_singleton.mp hwrite]
    exact hresolved
  cases stage with
  | idle => simp [show writes = [] from h]
  | begun => simp [show writes = [] from h]
  | disputeResolved dispute outcome =>
    obtain ⟨-, resolution, -, hwrites⟩ := h
    exact hresolution hwrites
  | disputesCounted dispute outcome remaining =>
    obtain ⟨-, resolution, -, hwrites⟩ := h
    exact hresolution hwrites
  | disputeSettled dispute outcome remaining =>
    obtain ⟨-, resolution, -, ⟨hwrites, -⟩ | ⟨attestation, -, hdisputed, -, -, rfl⟩⟩ := h
    · exact hresolution hwrites
    · intro write hwrite
      simp only [List.mem_cons, List.not_mem_nil, or_false] at hwrite
      rcases hwrite with rfl | rfl
      · exact hresolved
      · intro _ hold row hrow
        cases hold
        cases hrow
        exact ⟨_, rfl, fun hfinal => by simp [hdisputed, AttestationState.final] at hfinal⟩
  | done =>
    rcases h with h | ⟨dispute, attestation, -, -, hstate, rfl⟩
    · exact hharmless h
    · intro write hwrite
      simp only [List.mem_cons, List.not_mem_nil, or_false] at hwrite
      rcases hwrite with rfl | rfl
      · intro old hold
        cases hold
      · intro _ hold row hrow
        cases hold
        cases hrow
        exact ⟨_, rfl, fun hfinal => absurd hfinal hstate⟩
  | _ => exact hharmless h

/-! ## Steps -/

variable {keccak_256 : Canonical.Bytes → Canonical.Digest}
  {recover : AttestationMessage → Text → Option Text} {given : Given} {stage next : Stage}
  {changes : List (Change Row)} {before : List (Write Row)}

theorem harmless_others (hrecord : record Row.uniques Refusal.uniqueViolation rows changes = .ok writes)
    (others : ∀ change ∈ changes, change.row.attestation? = none ∧ change.row.dispute? = none) :
    ∀ write ∈ writes, Harmless write := by
  intro write hwrite
  obtain ⟨change, hchange, hrow, -⟩ := record_rows hrecord write hwrite
  obtain ⟨hattestation, hdispute⟩ := others change hchange
  rw [hrow] at hattestation hdispute
  exact .other _ hattestation hdispute

/-- The one attestation that an update finds. -/
theorem record_update_attestation {new : Attestation}
    (found : .attestation attestation ∈ rows)
    (hrecord : record Row.uniques Refusal.uniqueViolation rows [.update (.attestation new)] =
      .ok writes) (same : new.id = attestation.id) : writes = [⟨some (.attestation attestation), .attestation new⟩] := by
  obtain ⟨old, hold, rfl⟩ := record_update_single hrecord
  obtain ⟨hmem, hkey⟩ := Table.lookup_eq_some.mp hold
  have hsame : old = .attestation attestation :=
    Table.eq_of_key hmem found (hkey.trans (congrArg (Prod.mk _) same))
  rw [hsame]

theorem propagateClaim_nil {claim : Claim} (none : (db.activeOver claim.id).isEmpty = true) :
    db.propagateClaim claim = [] := by
  rw [Db.propagateClaim, List.isEmpty_iff.mp none]
  simp

theorem harmless_append (hbefore : ∀ write ∈ before, Harmless write)
    (hwrites : ∀ write ∈ writes, Harmless write) : ∀ write ∈ before ++ writes, Harmless write := by
  intro write hwrite
  exact (List.mem_append.mp hwrite).elim (hbefore write) (hwrites write)

/-- The update of an attestation that is no dispute's. -/
theorem harmless_attestation {new : Attestation} (found : .attestation attestation ∈ rows)
    (hrecord : record Row.uniques Refusal.uniqueViolation rows [.update (.attestation new)] =
      .ok writes) (same : new.id = attestation.id)
    (harmless : Harmless ⟨some (.attestation attestation), .attestation new⟩) :
    ∀ write ∈ writes, Harmless write := by
  obtain rfl := record_update_attestation found hrecord same
  intro write hwrite
  rw [List.mem_singleton.mp hwrite]
  exact harmless

/-- A dispute and its attestation. -/
theorem disputes_of_record {row : Attestation} (found : .attestation row ∈ rows)
    (hrecord : record Row.uniques Refusal.uniqueViolation rows
      [.insert (.dispute dispute), .update (.attestation (row.enter .disputed))] = .ok writes)
    (disputable : row.state = .disputed ∨ row.state.canTransition .disputed = true)
    (hof : dispute.Of row) (hopen : dispute.resolution = none) : Disputes writes := by
  obtain ⟨-, -, rest, hrest, rfl⟩ := record_insert.mp hrecord
  obtain rfl := record_update_attestation (attestation_mem_put_dispute.mpr found) hrest rfl
  refine ⟨dispute, row, hof, hopen, fun hfinal => ?_, rfl⟩
  rcases disputable with hdisputed | hmoves
  · simp [hdisputed, AttestationState.final] at hfinal
  · rw [AttestationState.not_canTransition_of_final hfinal] at hmoves
    cases hmoves

/-- Each statement keeps what is said of its transaction's writes. -/
theorem Step.written (h : Step keccak_256 recover db given stage next changes)
    (hrecord : record Row.uniques Refusal.uniqueViolation db.rows changes = .ok writes)
    (sees : db.rows = putAll rows before) (fits : Fits rows before) (settled : Settled rows)
    (disturbs : stage.disturbsNone db = true) (written : Written rows before stage) :
    Written rows (before ++ writes) next := by
  cases h with
  | begin =>
    obtain rfl := record_nil.mp hrecord
    exact (List.append_nil before).trans written
  | sign submission row new hfound hsigned =>
    obtain ⟨hmem, -⟩ := Db.attestation?_eq_some.mp hfound
    have hunsigned : row.state = .draft ∨ row.state = .signed := by
      simpa [Stage.disturbsNone, hfound] using disturbs
    subst hsigned
    exact harmless_append written (harmless_attestation hmem hrecord rfl (.sign _ _ hunsigned rfl))
  | supersede submission predecessorId caseState predecessor hfound =>
    obtain ⟨hmem, -⟩ := Db.attestation?_eq_some.mp hfound
    refine harmless_append written (harmless_attestation hmem hrecord rfl (.final _ _ ?_))
    simp [Attestation.enter, AttestationState.final]
  | revoke request caseState row hfound =>
    obtain ⟨hmem, -⟩ := Db.attestation?_eq_some.mp hfound
    refine harmless_append written (harmless_attestation hmem hrecord rfl (.final _ _ ?_))
    simp [Attestation.enter, AttestationState.final]
  | draft request startedAt current hfound =>
    obtain ⟨-, -, rest, hrest, rfl⟩ := record_insert.mp hrecord
    obtain rfl := record_nil.mp hrest
    refine harmless_append written fun write hwrite => ?_
    rw [List.mem_singleton.mp hwrite]
    exact .draft _ rfl
  | dispute request startedAt row hfound hdisputable =>
    obtain rfl : before = [] := written
    obtain ⟨hmem, -⟩ := Db.attestation?_eq_some.mp hfound
    exact .inr (disputes_of_record hmem hrecord hdisputable rfl rfl)
  | resolve request startedAt row hfound hunresolved =>
    obtain rfl : before = [] := written
    obtain ⟨hmem, hid⟩ := Db.dispute?_eq_some.mp hfound
    obtain ⟨old, hold, rfl⟩ := record_update_single hrecord
    obtain ⟨hmem', hkey⟩ := Table.lookup_eq_some.mp hold
    obtain rfl : old = .dispute row := Table.eq_of_key hmem' hmem hkey
    exact ⟨hunresolved, _, rfl, rfl⟩
  | countDisputes dispute outcome =>
    obtain rfl := record_nil.mp hrecord
    rw [List.append_nil]
    exact written
  | activate dispute row hfound hdisputed =>
    obtain ⟨hunresolved, resolution, houtcome, rfl⟩ := written
    obtain ⟨hmem, hid⟩ := Db.attestation?_eq_some.mp hfound
    obtain rfl := record_update_attestation hmem hrecord rfl
    exact ⟨hunresolved, resolution, houtcome, .inr ⟨row, hid.symm, hdisputed, rfl, rfl, rfl⟩⟩
  | settle dispute outcome remaining hstays =>
    obtain ⟨hunresolved, resolution, houtcome, rfl⟩ := written
    obtain rfl := record_nil.mp hrecord
    rw [List.append_nil]
    refine ⟨hunresolved, resolution, houtcome, .inl ⟨rfl, fun hdismissed hnone row hrow hof => ?_⟩⟩
    have hdispute : .dispute dispute ∈ rows := (Table.lookup_eq_some.mp fits.1).1
    have hopen : dispute.dismissed = false := by simp [Dispute.dismissed, hunresolved]
    have hseen : .attestation row ∈ db.rows := by
      rw [sees]
      exact attestation_mem_put_dispute.mpr hrow
    have hnot := hstays hdismissed hnone row (Db.attestation?_eq_some.mpr ⟨hseen, hof.symm⟩)
    exact (settled.questioned row hrow dispute hdispute hof hopen).resolve_left hnot
  | correctClaim claimId expectedVersion startedAt request previous hfound =>
    obtain rfl : before = [] := written
    rw [← (Db.claim?_eq_some.mp hfound).2] at disturbs
    rw [propagateClaim_nil disturbs] at hrecord
    exact .inl (harmless_others hrecord (by simp [Change.row, Row.attestation?, Row.dispute?]))
  | staleClaim claimId startedAt current hfound =>
    obtain rfl : before = [] := written
    rw [← (Db.claim?_eq_some.mp hfound).2] at disturbs
    rw [propagateClaim_nil disturbs] at hrecord
    exact .inl (harmless_others hrecord (by simp [Change.row, Row.attestation?, Row.dispute?]))
  | staleAttestations ids startedAt =>
    obtain rfl : before = [] := written
    have hnone : (db.rows.rows.filterMap Row.attestation?).filter
        (fun row => row.state = .active ∧ row.id ∈ ids) = [] := by
      refine List.filter_eq_nil_iff.mpr fun row hrow => ?_
      have hnot := List.all_eq_true.mp disturbs row hrow
      simp only [Bool.or_eq_true, decide_eq_true_eq] at hnot ⊢
      exact fun hboth => hnot.elim (· hboth.1) (· hboth.2)
    rw [hnone] at hrecord
    obtain rfl := record_nil.mp hrecord
    exact .inl (by simp)
  | moveCase | addClaim | addArtifact | revokeArtifact | addReceipt =>
    obtain rfl : before = [] := written
    exact .inl (harmless_others hrecord (by simp [Change.row, Row.attestation?, Row.dispute?]))
  | createCase | enterReview | keepState | requestSignature | recompute =>
    exact .inl (harmless_append written
      (harmless_others hrecord (by simp [Change.row, Row.attestation?, Row.dispute?])))
  | readClaims | readDraftContext | readDraft | readRevocation | consume | recordConflict =>
    obtain rfl : before = [] := written
    exact harmless_others hrecord (by simp [Change.row, Row.attestation?, Row.dispute?])
  | _ =>
    exact harmless_append written
      (harmless_others hrecord (by simp [Change.row, Row.attestation?, Row.dispute?]))

end Rows

section Runs

variable {W : Type} {keccak_256 : Canonical.Bytes → Canonical.Digest}
  {recover : AttestationMessage → Text → Option Text} {s : State W Db (Point Row Stage)}
  {rows rows' : Table Row.key} {writes : List (Write Row)} {stage : Stage} {db : Db}

/-- Final attestations stay so in the rows of another transaction. -/
theorem Written.congr (h : Written rows writes stage)
    (old : ∀ row, .attestation row ∈ rows' → (∃ before, .attestation before ∈ rows ∧
      before.id = row.id ∧ (before.state ∈ AttestationState.final → row.state ∈ AttestationState.final)) ∨
      ∀ dispute, .dispute dispute ∈ rows → ¬ dispute.Of row)
    (fits : Fits rows writes) : Written rows' writes stage := by
  cases stage with
  | disputeSettled dispute outcome remaining =>
    obtain ⟨hunresolved, resolution, houtcome, hresolves⟩ := h
    refine ⟨hunresolved, resolution, houtcome, ?_⟩
    refine hresolves.imp_left fun ⟨hwrites, hfinal⟩ =>
      ⟨hwrites, fun hdismissed hnone row hrow hof => ?_⟩
    subst hwrites
    have hdispute : .dispute dispute ∈ rows := (Table.lookup_eq_some.mp fits.1).1
    rcases old row hrow with ⟨before, hbefore, hid, hstays⟩ | hnot
    · exact hstays (hfinal hdismissed hnone before hbefore (hof.trans hid.symm))
    · exact absurd hof (hnot dispute hdispute)
  | _ => exact h

theorem attestation_putAll (known : ∀ dispute, .dispute dispute ∈ rows →
      ∃ attestation, .attestation attestation ∈ rows ∧ dispute.Of attestation)
    (fits : Fits rows writes)
    (stays : ∀ write ∈ writes, ∀ old ∈ write.old, StaysFinal old write.new) {row : Attestation}
    (hrow : .attestation row ∈ putAll rows writes) :
    (∃ before, .attestation before ∈ rows ∧ before.id = row.id ∧
      (before.state ∈ AttestationState.final → row.state ∈ AttestationState.final)) ∨
      ∀ dispute, .dispute dispute ∈ rows → ¬ dispute.Of row := by
  by_cases hbefore : ∃ before, .attestation before ∈ rows ∧ before.id = row.id
  · obtain ⟨before, hmem, hid⟩ := hbefore
    obtain ⟨later, hlater, hkey, hstays⟩ := fits.exists_after StaysFinal.refl
      (fun _ _ _ => StaysFinal.trans) stays hmem
    have hsame : later = .attestation row :=
      Table.eq_of_key hlater hrow (hkey.trans (congrArg (Prod.mk _) hid))
    obtain ⟨_, hafter, hfinal⟩ := hstays before rfl
    rw [hsame] at hafter
    cases hafter
    exact .inl ⟨before, hmem, hid, hfinal⟩
  · right
    intro dispute hdispute hof
    obtain ⟨attestation, hmem, hof'⟩ := known dispute hdispute
    exact hbefore ⟨attestation, hmem, hof'.symm.trans hof⟩

theorem mem_filterMap_dispute {other : Dispute} :
    other ∈ rows.rows.filterMap Row.dispute? ↔ .dispute other ∈ rows := by
  rw [List.mem_filterMap]
  constructor
  · rintro ⟨row, hrow, hsome⟩
    cases row <;> cases hsome
    exact hrow
  · intro hother
    exact ⟨_, hother, rfl⟩

theorem mem_filterMap_attestation {attestation : Attestation} :
    attestation ∈ rows.rows.filterMap Row.attestation? ↔ .attestation attestation ∈ rows := by
  rw [List.mem_filterMap]
  constructor
  · rintro ⟨row, hrow, hsome⟩
    cases row <;> cases hsome
    exact hrow
  · intro hattestation
    exact ⟨_, hattestation, rfl⟩

theorem othersDismissed_iff {dispute : Dispute} : db.othersDismissed dispute = true ↔
    ∀ other, .dispute other ∈ db.rows → other.attestationId = dispute.attestationId →
      other.id ≠ dispute.id → other.dismissed = true := by
  rw [Db.othersDismissed, List.all_eq_true]
  refine forall_congr' fun other => ?_
  rw [mem_filterMap_dispute, Bool.or_eq_true, Bool.or_eq_true, decide_eq_true_eq, decide_eq_true_eq]
  constructor
  · intro h hother hof hne
    exact ((h hother).resolve_left fun h => h.elim (· hof) hne)
  · intro h hother
    by_cases hof : other.attestationId = dispute.attestationId
    · by_cases hid : other.id = dispute.id
      · exact .inl (.inr hid)
      · exact .inr (h hother hof hid)
    · exact .inl (.inl hof)

/-- No signature or staleness disturbs an attestation, and dismissals count right. -/
def DisputesCounted (s : State W Db (Point Row Stage)) : Action W Given → Prop
  | .statement w _ => (s.point w).stage.disturbsNone (view s w) = true
  | .commit w => (s.point w).stage.countsRight s.committed = true
  | _ => True

theorem Settled.commit (h : Settled db.rows) (fits : Fits db.rows writes)
    (written : Written db.rows writes stage) (done : stage.isDone = true)
    (right : stage.countsRight db = true) : Settled (putAll db.rows writes) := by
  cases stage with
  | done => exact written.elim (h.putAll_harmless fits) (h.putAll_disputes fits)
  | reassessing remaining => exact h.putAll_harmless fits written
  | disputeSettled dispute outcome remaining =>
    obtain ⟨hunresolved, resolution, houtcome, hresolves⟩ := written
    refine h.putAll_resolves fits hunresolved hresolves houtcome fun hdismissed => ?_
    subst hdismissed
    rw [← othersDismissed_iff]
    exact of_decide_eq_true right
  | _ => cases done

theorem disputes_maintain : (program keccak_256 recover).protocol.Maintains (W := W) DisputesCounted
    (fun db => Distinct Row.uniques db.rows ∧ Settled db.rows)
    fun db p => (program keccak_256 recover).Fitting db p ∧ Written db.rows p.writes p.stage := by
  refine Program.writes_maintains.and ?_
  constructor
  case idle => exact fun _ _ => rfl
  case statement =>
    intro s w given q sound allowed ran
    obtain ⟨changes, writes, hstep, hrecord, hq⟩ := step_of_protocol ran
    have hwritten := hstep.written hrecord rfl (allowed.2.relies w).fits sound.committed allowed.1
      (sound.relies w)
    rw [hq]
    exact hwritten
  case commit =>
    intro s w f sound allowed done
    obtain ⟨hdone, rfl⟩ := Program.effect_some done
    exact sound.committed.commit (allowed.2.relies w).fits (sound.relies w) hdone allowed.1
  case stable =>
    intro s w v f sound allowed hne done
    obtain ⟨-, rfl⟩ := Program.effect_some done
    have hfits := (allowed.2.relies w).fits
    exact (sound.relies v).congr (fun row hrow => attestation_putAll sound.committed.known hfits
      ((sound.relies w).staysFinal hfits) hrow) (allowed.2.relies v).fits
  case outside =>
    intro s input db sound moved
    cases moved
    exact ⟨sound.committed, sound.relies⟩

variable [DecidableEq W]

def disputing (id : Uuid) : List Given :=
  script (.dispute ⟨units "attestation 1", units "wrong scope", [], none⟩) id 2

def resolving (id : Uuid) (outcome : DisputeOutcome) : List Given :=
  script (.resolve ⟨id, outcome, units "checked"⟩) [] 4

theorem permits_countsRight : (program keccak_256 recover).protocol.Permits (W := W)
    (fun db p => p.stage.disturbsNone (db.write p.writes) && p.stage.countsRight db)
    DisputesCounted := by
  intro db w p hallowed
  obtain ⟨hdisturbs, hcounts⟩ := Bool.and_eq_true_iff.mp hallowed
  constructor
  · rw [DisputesCounted, Protocol.only_point]
    exact hcounts
  · intro given
    rw [DisputesCounted, view, Protocol.only_point]
    exact hdisturbs

end Runs

end MpcRegistry.Verification
