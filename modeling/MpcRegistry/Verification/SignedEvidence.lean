import MpcRegistry.Canonical.ProofSoundness
import MpcRegistry.Verification.Steps

/-!
# What a signature is accepted over

The hash that a submission compares is the one of the case, which is taken when the case
is created and never again. So it says what the evidence was then, not what it is.
-/
namespace MpcRegistry.Verification
open Library WriteSet ReadCommitted Utf16

variable {keccak_256 : Canonical.Bytes → Canonical.Digest}
  {recover : AttestationMessage → Text → Option Text} {db : Db} {given : Given}
  {stage next : Stage} {changes : List (Change Row)}

/-- The hash of a case is that of the snapshot it was created with. -/
def Row.Hashed (keccak_256 : Canonical.Bytes → Canonical.Digest) (row : Row) : Prop :=
  ∀ case ∈ row.case?, hashSnapshotInput keccak_256 case.snapshot = .ok case.evidenceSnapshotHash

theorem Case.enter_hashed {current : Case} {state : CaseState} (h : Row.Hashed keccak_256 (.case current)) :
    Row.Hashed keccak_256 (.case (current.enter state)) := by
  intro case hcase
  cases hcase
  exact h current rfl

theorem propagateClaim_hashed {claim : Claim} {change : Change Row}
    (h : change ∈ db.propagateClaim claim) : Row.Hashed keccak_256 change.row := by
  unfold Db.propagateClaim at h
  split at h
  · cases h
  · obtain ⟨row, -, rfl⟩ := List.mem_map.mp h
    exact fun _ hcase => absurd hcase (by simp [Change.row, Row.case?])

/-- A case is written with a new hash only when it is created. -/
theorem Step.hashed (h : Step keccak_256 recover db given stage next changes)
    (hashed : ∀ row ∈ db.rows, Row.Hashed keccak_256 row) :
    ∀ change ∈ changes, Row.Hashed keccak_256 change.row := by
  have found : ∀ {id : Uuid} {current : Case} {state : CaseState}, db.case? id = some current →
      Row.Hashed keccak_256 (.case (current.enter state)) := fun hfound =>
    Case.enter_hashed (hashed _ (Db.case?_eq_some.mp hfound).1)
  cases h with
  | createCase projectId claims artifactIds snapshot hash _ hhash =>
    simpa [Change.row, Row.Hashed, Row.case?] using hhash
  | moveCase request startedAt current hfound =>
    simpa [Change.row, Row.Hashed, Row.case?] using found hfound
  | enterReview caseId current hfound =>
    simpa [Change.row, Row.Hashed, Row.case?] using found hfound
  | signCase submission current hfound =>
    simpa [Change.row, Row.Hashed, Row.case?] using found hfound
  | supersedeCase submission caseId caseState current _ hfound =>
    simpa [Change.row, Row.Hashed, Row.case?] using found hfound
  | revokeCase request row caseState current _ hfound =>
    simpa [Change.row, Row.Hashed, Row.case?] using found hfound
  | correctClaim claimId expectedVersion startedAt request previous =>
    intro change hchange
    rcases List.mem_append.mp hchange with hchange | hchange
    · simp only [List.mem_cons, List.not_mem_nil, or_false] at hchange
      rcases hchange with rfl | rfl <;> simp [Change.row, Row.Hashed, Row.case?]
    · exact propagateClaim_hashed hchange
  | staleClaim claimId startedAt current =>
    intro change hchange
    rcases List.mem_cons.mp hchange with rfl | hchange
    · simp [Change.row, Row.Hashed, Row.case?]
    · exact propagateClaim_hashed hchange
  | staleAttestations ids startedAt =>
    intro change hchange
    obtain ⟨row, -, rfl⟩ := List.mem_map.mp hchange
    simp [Change.row, Row.Hashed, Row.case?]
  | _ => simp [Change.row, Row.Hashed, Row.case?]

/-- What a transaction sees. -/
def view {W : Type} (s : State W Db (Point Row Stage)) (w : W) : Db :=
  s.committed.write (s.point w).writes

/-- `buildEvidenceSnapshot` of the case, taken now, has the hash that was signed. -/
def Db.Rebuilds (keccak_256 : Canonical.Bytes → Canonical.Digest) (db : Db) (case : Case)
    (signedHash : Text) : Prop :=
  hashSnapshotInput keccak_256 (db.snapshotInput case.projectId case.claimIds) = .ok signedHash

instance (keccak_256 : Canonical.Bytes → Canonical.Digest) (db : Db) (case : Case)
    (signedHash : Text) : Decidable (db.Rebuilds keccak_256 case signedHash) :=
  inferInstanceAs (Decidable (_ = _))

/-- The evidence is what it was when the case was created, as far as a hash can tell. -/
def Db.EvidenceKept (keccak_256 : Canonical.Bytes → Canonical.Digest) (db : Db) (case : Case) :
    Prop :=
  let snapshot := db.snapshotInput case.projectId case.claimIds
  snapshotBytes snapshot = snapshotBytes case.snapshot ∨ Collide keccak_256 snapshot case.snapshot

section Runs

variable {W : Type} [DecidableEq W] {s : State W Db (Point Row Stage)} {w : W}

omit [DecidableEq W] in
theorem hashed_maintains : (program keccak_256 recover).protocol.Maintains (W := W)
    (fun _ _ => True) (fun db => ∀ row ∈ db.rows, Row.Hashed keccak_256 row)
    fun _ p => ∀ write ∈ p.writes, Row.Hashed keccak_256 write.new := by
  refine Program.rows_maintain fun db stage given next changes hview hran => ?_
  exact (step_of_program hran).hashed hview

theorem hashed_of_reachable (reached : (reviewSystem keccak_256 recover W).Reachable s) :
    ∀ row ∈ (view s w).rows, Row.Hashed keccak_256 row := by
  have sound := hashed_maintains.reachable (fun db hdb => by
    obtain ⟨now, rfl⟩ := hdb
    exact fun row hrow => absurd hrow (Table.not_mem_empty row)) (reached.restrict fun _ _ => trivial)
  intro row hrow
  rcases mem_of_mem_putAll hrow with hrow | ⟨write, hwrite, rfl⟩
  · exact sound.committed row hrow
  · exact sound.relies w write hwrite

/-- When a submission is accepted, in any run, the evidence has the hash that was signed
exactly if it is still what it was when the case was created. -/
theorem signature_binds_iff (reached : (reviewSystem keccak_256 recover W).Reachable s)
    {q : Point Row Stage} {submission : Submission}
    (ran : (program keccak_256 recover).protocol.statement s.committed (s.point w) given = .ok q)
    (accepted : q.stage = .accepted submission) :
    ∃ case, .case case ∈ (view s w).rows ∧ case.id = submission.attestation.caseId ∧
      ((view s w).Rebuilds keccak_256 case submission.signatureRequest.evidenceSnapshotHash ↔
        (view s w).EvidenceKept keccak_256 case) := by
  obtain ⟨changes, writes, hstep, -, -⟩ := step_of_protocol ran
  rw [accepted] at hstep
  generalize (s.point w).stage = before at hstep
  cases hstep with
  | accept request signatureRequest startedAt row current signer _ hcase hunchanged =>
    obtain ⟨hmem, hid⟩ := Db.case?_eq_some.mp hcase
    have hhashed := hashed_of_reachable (w := w) reached (.case current) hmem current rfl
    rw [hunchanged] at hhashed
    exact ⟨current, hmem, hid, hashSnapshotInput_eq_iff hhashed⟩

/-! ## Evidence that is added after the request -/

/-- Keccak-256 on the two snapshots of the run; their lengths tell them apart. -/
def snapshotKeccak (input : Canonical.Bytes) : Canonical.Digest :=
  match input.length with
  | 145 => Canonical.digestOf 0xe3f3f0530f883168c0fe1ef74f58e50e90309dfeb42ea53cbb9f5890ea3ed24f
  | 157 => Canonical.digestOf 0x97332c89e822461235f196008426d8b77d09e82f7ff257f1ad3a56ff8aa8c3e7
  | _ => Canonical.digestOf 0

def submitting : List Given :=
  script (.submit (plainSubmit (units "attestation 1") (units "request 1"))) [] 2

/-- The submission that the next statement of the transaction accepts. -/
def acceptedBy (db : Db) (p : Point Row Stage) : Option Submission :=
  match (program snapshotKeccak recoverSigned).protocol.statement db p
    ⟨.addReceipt [], [], [], 0, 0⟩ with
  | .ok ⟨.accepted submission, _⟩ => some submission
  | _ => none

/-- The acceptance at the end of a run of requests, with what is to hold of its case. -/
def acceptsAfter (requests : List (List Given)) (holds : Db → Submission → Case → Bool) : Bool :=
  let reviews := (program snapshotKeccak recoverSigned).protocol
  (reviews.inTurn (fun _ _ => true) (Db.empty 0) requests).any fun db =>
    (reviews.underway db reviews.idle submitting).any fun p =>
      (acceptedBy db p).any fun submission =>
        (db.write p.writes).rows.rows.any fun row => row.case?.any fun case =>
          case.id = submission.attestation.caseId ∧ holds (db.write p.writes) submission case

theorem exists_of_acceptsAfter {requests : List (List Given)} {holds : Db → Submission → Case → Bool}
    (h : acceptsAfter requests holds = true) :
    ∃ (s : State Nat Db (Point Row Stage)) (given : Given) (q : Point Row Stage)
      (submission : Submission) (case : Case),
      (reviewSystem snapshotKeccak recoverSigned Nat).Reachable s ∧
      (program snapshotKeccak recoverSigned).protocol.statement s.committed (s.point 0) given = .ok q ∧
      q.stage = .accepted submission ∧ .case case ∈ (view s 0).rows ∧
      case.id = submission.attestation.caseId ∧ holds (view s 0) submission case = true := by
  obtain ⟨db, hdb, h⟩ := Option.any_eq_true _ _ |>.mp h
  obtain ⟨p, hp, h⟩ := Option.any_eq_true _ _ |>.mp h
  obtain ⟨submission, hsubmission, h⟩ := Option.any_eq_true _ _ |>.mp h
  obtain ⟨row, hrow, h⟩ := List.any_eq_true.mp h
  obtain ⟨case, hcase, h⟩ := Option.any_eq_true _ _ |>.mp h
  obtain ⟨hid, hholds⟩ := of_decide_eq_true h
  have hrow : Row.case case ∈ (db.write p.writes).rows := by
    cases row <;> cases hcase
    exact hrow
  have reached := Protocol.reachable_underway StartsEmpty 0 ⟨0, rfl⟩ hdb hp
  unfold acceptedBy at hsubmission
  split at hsubmission
  · next writes hran =>
    cases hsubmission
    refine ⟨_, ⟨.addReceipt [], [], [], 0, 0⟩, ⟨.accepted submission, writes⟩, submission, case,
      reached, ?_, rfl, ?_, hid, ?_⟩
    · rw [Protocol.only_point]
      exact hran
    · rw [view, Protocol.only_point]
      exact hrow
    · rw [view, Protocol.only_point]
      exact hholds
  · cases hsubmission

/-- An artifact is added between the request and the submission: the signature is accepted
although the evidence no longer has the hash that was signed. -/
theorem signature_unbound_added :
    ∃ (s : State Nat Db (Point Row Stage)) (given : Given) (q : Point Row Stage)
      (submission : Submission) (case : Case),
      (reviewSystem snapshotKeccak recoverSigned Nat).Reachable s ∧
      (program snapshotKeccak recoverSigned).protocol.statement s.committed (s.point 0) given = .ok q ∧
      q.stage = .accepted submission ∧ .case case ∈ (view s 0).rows ∧
      case.id = submission.attestation.caseId ∧
      ¬ (view s 0).Rebuilds snapshotKeccak case submission.signatureRequest.evidenceSnapshotHash := by
  have hrun : acceptsAfter
      (readyToSign ++ [script (.addArtifact (units "project 1")) (units "artifact 1") 2])
      (fun db submission case => ¬ db.Rebuilds snapshotKeccak case
        submission.signatureRequest.evidenceSnapshotHash) = true := by
    decide +kernel
  obtain ⟨s, given, q, submission, case, reached, hran, haccepted, hcase, hid, hholds⟩ :=
    exists_of_acceptsAfter hrun
  exact ⟨s, given, q, submission, case, reached, hran, haccepted, hcase, hid,
    of_decide_eq_true hholds⟩

/-- Nothing changes between the request and the submission. -/
theorem signature_binds_unchanged :
    ∃ (s : State Nat Db (Point Row Stage)) (submission : Submission) (case : Case),
      .case case ∈ (view s 0).rows ∧ case.id = submission.attestation.caseId ∧
      ((view s 0).Rebuilds snapshotKeccak case submission.signatureRequest.evidenceSnapshotHash ↔
        (view s 0).EvidenceKept snapshotKeccak case) := by
  have hrun : acceptsAfter readyToSign (fun _ _ _ => true) = true := by
    decide +kernel
  obtain ⟨s, given, q, submission, -, reached, hran, haccepted, -⟩ := exists_of_acceptsAfter hrun
  obtain ⟨case, hcase, hid, hiff⟩ := signature_binds_iff reached hran haccepted
  exact ⟨s, submission, case, hcase, hid, hiff⟩

end Runs

end MpcRegistry.Verification

