import MpcRegistry.Verification.SignedEvidence

/-!
# The states of a case

Every change of a case's state as the transaction writes it, from the state that it finds.
The transition route asks the machine about the row it has locked. A submission sets
`signed` whatever the state is, a revocation and a supersession ask the machine about a
state read before the lock, and drafts and submissions leave no transition row.
-/
namespace MpcRegistry.Verification
open Library WriteSet ReadCommitted Utf16

/-! ## Changes of state -/

structure CaseMove where
  caseId : Uuid
  fromState : CaseState
  toState : CaseState
  deriving DecidableEq, Repr

def caseMove? (write : Write Row) : Option CaseMove :=
  match write.old, write.new with
  | some (.case old), .case new =>
    if old.state = new.state then none else some ⟨new.id, old.state, new.state⟩
  | _, _ => none

/-- The changes of state among the writes of a transaction, in their order. -/
def caseMoves (writes : List (Write Row)) : List CaseMove := writes.filterMap caseMove?

def CaseMove.IsEdge (move : CaseMove) : Prop := move.fromState.canTransition move.toState = true

def AlongEdges (writes : List (Write Row)) : Prop := ∀ move ∈ caseMoves writes, move.IsEdge

/-- A transition row is inserted for the change. -/
def CaseMove.Recorded (writes : List (Write Row)) (move : CaseMove) : Prop :=
  ∃ row : CaseTransition, ⟨none, .caseTransition row⟩ ∈ writes ∧ row.caseId = move.caseId ∧
    row.fromState = move.fromState ∧ row.toState = move.toState

def AllRecorded (writes : List (Write Row)) : Prop := ∀ move ∈ caseMoves writes, move.Recorded writes

/-- The next statement finds its case where the machine allows what it writes: a signature
finds it in review or signed, a revocation and a supersession in the state they read. -/
def Stage.findsCase (db : Db) : Stage → Bool
  | .attestationSigned submission => (db.case? submission.attestation.caseId).all fun current =>
      current.state = .inReview || current.state = .signed
  | .predecessorSuperseded _ caseId caseState => !caseState.canTransition .superseded ||
      (db.case? caseId).all fun current => current.state = caseState
  | .attestationRevoked _ row caseState => !caseState.canTransition .revoked ||
      (db.case? row.caseId).all fun current => current.state = caseState
  | _ => true

/-- The next statement is no signature or draft that changes the state of its case. -/
def Stage.leavesCase (db : Db) : Stage → Bool
  | .attestationSigned submission => (db.case? submission.attestation.caseId).all fun current =>
      current.state = .signed
  | .drafted caseId => (db.case? caseId).all fun current => current.state ≠ .assigned
  | _ => true

section Steps

variable {keccak_256 : Canonical.Bytes → Canonical.Digest}
  {recover : AttestationMessage → Text → Option Text} {db : Db} {given : Given}
  {stage next : Stage} {changes : List (Change Row)} {writes : List (Write Row)} {current : Case}
  {state : CaseState} {id : Uuid}

theorem caseMoves_append {first more : List (Write Row)} :
    caseMoves (first ++ more) = caseMoves first ++ caseMoves more := List.filterMap_append

theorem caseMoves_eq_nil {t : Table Row.key}
    (hrecord : record Row.uniques Refusal.uniqueViolation t changes = .ok writes)
    (created : ∀ change ∈ changes, ∀ case, change.row.case? = some case → change = .insert (.case case)) :
    caseMoves writes = [] := by
  refine List.filterMap_eq_nil_iff.mpr fun write hwrite => ?_
  obtain ⟨change, hchange, hrow, hfinds⟩ := record_rows hrecord write hwrite
  unfold caseMove?
  split
  · next old case hold hnew =>
    rw [hnew] at hrow
    obtain rfl := created change hchange case (by rw [hrow]; rfl)
    rw [hold] at hfinds
    cases hfinds
  · rfl

/-- An UPDATE of the state of a case, with rows of other tables. -/
theorem caseMoves_enter (found : .case current ∈ db.rows)
    (hrecord : record Row.uniques Refusal.uniqueViolation db.rows
      (.update (.case (current.enter state)) :: changes) = .ok writes)
    (others : ∀ change ∈ changes, change.row.case? = none) :
    ∀ move ∈ caseMoves writes, move = ⟨current.id, current.state, state⟩ ∧
      current.state ≠ state := by
  obtain ⟨old, hold, -, rest, hrest, rfl⟩ := record_update.mp hrecord
  have hlookup : db.rows.lookup (.cases, current.id) = some (.case current) :=
    Table.lookup_eq_some.mpr ⟨found, rfl⟩
  obtain rfl : Row.case current = old := Option.some.inj (hlookup.symm.trans hold)
  have hothers : caseMoves rest = [] := by
    refine caseMoves_eq_nil hrest ?_
    intro change hchange case hcase
    rw [others change hchange] at hcase
    cases hcase
  intro move hmove
  obtain ⟨write, hwrite, hmove⟩ := List.mem_filterMap.mp hmove
  rcases List.mem_cons.mp hwrite with rfl | hwrite
  · obtain ⟨hother, hmove⟩ := Option.ite_none_left_eq_some.mp hmove
    exact ⟨(Option.some.inj hmove).symm, hother⟩
  · have hmem : move ∈ caseMoves rest := List.mem_filterMap.mpr ⟨write, hwrite, hmove⟩
    rw [hothers] at hmem
    cases hmem

theorem propagateClaim_not_case {claim : Claim} :
    ∀ change ∈ db.propagateClaim claim, change.row.case? = none := by
  intro change hchange
  unfold Db.propagateClaim at hchange
  split at hchange
  · cases hchange
  · obtain ⟨row, -, rfl⟩ := List.mem_map.mp hchange
    rfl

/-- What a statement does to cases: nothing, or it updates the state of one. -/
inductive EntersCase (db : Db) (given : Given) : Stage → Case → CaseState → List (Change Row) → Prop where
  | move (request : MoveRequest) (startedAt : Nat) (current : Case)
      (moves : current.state.canTransition request.toState = true) :
      EntersCase db given (.begun (.moveCase request) startedAt) current request.toState
        [.insert (.caseTransition
          ⟨given.uuid, current.id, current.state, request.toState, request.reason, request.actor⟩)]
  | review (caseId : Uuid) (current : Case) (found : db.case? caseId = some current)
      (assigned : current.state = .assigned) : EntersCase db given (.drafted caseId) current .inReview []
  | sign (submission : Submission) (current : Case)
      (found : db.case? submission.attestation.caseId = some current) :
      EntersCase db given (.attestationSigned submission) current .signed []
  | supersede (submission : Submission) (caseId : Uuid) (caseState : CaseState) (current : Case)
      (moves : caseState.canTransition .superseded = true) (found : db.case? caseId = some current)
      (reason : Text) :
      EntersCase db given (.predecessorSuperseded submission caseId caseState) current .superseded
        [.insert (.caseTransition
          ⟨given.uuid, caseId, caseState, .superseded, reason, submission.request.actor⟩)]
  | revoke (request : RevokeRequest) (row : Attestation) (caseState : CaseState) (current : Case)
      (moves : caseState.canTransition .revoked = true) (found : db.case? row.caseId = some current)
      (reason : Text) :
      EntersCase db given (.attestationRevoked request row caseState) current .revoked
        [.insert (.caseTransition
          ⟨given.uuid, row.caseId, caseState, .revoked, reason, request.actor⟩)]

theorem Step.entersCase (h : Step keccak_256 recover db given stage next changes) :
    (∀ change ∈ changes, ∀ case, change.row.case? = some case → change = .insert (.case case)) ∨
      ∃ current state rest, .case current ∈ db.rows ∧ EntersCase db given stage current state rest ∧
        changes = .update (.case (current.enter state)) :: rest := by
  have found : ∀ {id : Uuid} {current : Case}, db.case? id = some current →
      .case current ∈ db.rows := fun h => (Db.case?_eq_some.mp h).1
  cases h with
  | moveCase request startedAt current hfound _ _ hmoves =>
    exact .inr ⟨current, _, _, found hfound, .move request startedAt current hmoves, rfl⟩
  | enterReview caseId current hfound hassigned =>
    exact .inr ⟨current, _, _, found hfound, .review caseId current hfound hassigned, rfl⟩
  | signCase submission current hfound =>
    exact .inr ⟨current, _, _, found hfound, .sign submission current hfound, rfl⟩
  | supersedeCase submission caseId caseState current hmoves hfound =>
    exact .inr ⟨current, _, _, found hfound, .supersede _ _ _ _ hmoves hfound _, rfl⟩
  | revokeCase request row caseState current hmoves hfound =>
    exact .inr ⟨current, _, _, found hfound, .revoke _ _ _ _ hmoves hfound _, rfl⟩
  | createCase =>
    left
    intro change hchange case hcase
    obtain rfl := List.mem_singleton.mp hchange
    cases hcase
    rfl
  | correctClaim claimId expectedVersion startedAt request previous =>
    left
    intro change hchange case hcase
    rcases List.mem_append.mp hchange with hchange | hchange
    · simp only [List.mem_cons, List.not_mem_nil, or_false] at hchange
      rcases hchange with rfl | rfl <;> cases hcase
    · rw [propagateClaim_not_case change hchange] at hcase
      cases hcase
  | staleClaim claimId startedAt current =>
    left
    intro change hchange case hcase
    rcases List.mem_cons.mp hchange with rfl | hchange
    · cases hcase
    · rw [propagateClaim_not_case change hchange] at hcase
      cases hcase
  | staleAttestations ids startedAt =>
    left
    intro change hchange case hcase
    obtain ⟨row, -, rfl⟩ := List.mem_map.mp hchange
    cases hcase
  | _ => simp [Change.row, Row.case?]

theorem EntersCase.others {rest : List (Change Row)} (h : EntersCase db given stage current state rest) :
    ∀ change ∈ rest, change.row.case? = none := by
  cases h <;> simp [Change.row, Row.case?]

/-- What a statement changes is an edge of the machine, where it finds its case so. -/
theorem Step.edges (h : Step keccak_256 recover db given stage next changes)
    (hrecord : record Row.uniques Refusal.uniqueViolation db.rows changes = .ok writes)
    (finds : stage.findsCase db = true) : ∀ move ∈ caseMoves writes, move.IsEdge := by
  intro move hmove
  rcases h.entersCase with created | ⟨current, state, rest, hmem, henters, rfl⟩
  · rw [caseMoves_eq_nil hrecord created] at hmove
    cases hmove
  · obtain ⟨rfl, hother⟩ := caseMoves_enter hmem hrecord henters.others move hmove
    cases henters with
    | move request startedAt _ hmoves => exact hmoves
    | review caseId _ hfound hassigned =>
      rw [CaseMove.IsEdge, hassigned]
      rfl
    | sign submission _ hfound =>
      have hfinds : current.state = .inReview ∨ current.state = .signed := by
        simpa [Stage.findsCase, hfound] using finds
      rcases hfinds with hreview | hsigned
      · rw [CaseMove.IsEdge, hreview]
        rfl
      · exact absurd hsigned hother
    | supersede submission caseId caseState _ hmoves hfound =>
      have hfinds : current.state = caseState := by
        simpa [Stage.findsCase, hmoves, hfound] using finds
      rw [CaseMove.IsEdge, hfinds]
      exact hmoves
    | revoke request row caseState _ hmoves hfound =>
      have hfinds : current.state = caseState := by
        simpa [Stage.findsCase, hmoves, hfound] using finds
      rw [CaseMove.IsEdge, hfinds]
      exact hmoves

/-- And it leaves a transition row, unless it is a signature or a draft. -/
theorem Step.recorded (h : Step keccak_256 recover db given stage next changes)
    (hrecord : record Row.uniques Refusal.uniqueViolation db.rows changes = .ok writes)
    (finds : stage.findsCase db = true) (leaves : stage.leavesCase db = true) :
    ∀ move ∈ caseMoves writes, move.Recorded writes := by
  intro move hmove
  rcases h.entersCase with created | ⟨current, state, rest, hmem, henters, rfl⟩
  · rw [caseMoves_eq_nil hrecord created] at hmove
    cases hmove
  · obtain ⟨rfl, hother⟩ := caseMoves_enter hmem hrecord henters.others move hmove
    obtain ⟨old, -, -, more, hmore, rfl⟩ := record_update.mp hrecord
    have inserted : ∀ {row : CaseTransition}, rest = [.insert (.caseTransition row)] →
        ⟨none, .caseTransition row⟩ ∈ (⟨some old, .case (current.enter state)⟩ :: more : List (Write Row)) := by
      rintro row rfl
      obtain ⟨-, -, last, -, rfl⟩ := record_insert.mp hmore
      exact List.mem_cons_of_mem _ List.mem_cons_self
    cases henters with
    | move request startedAt _ hmoves => exact ⟨_, inserted rfl, rfl, rfl, rfl⟩
    | review caseId _ hfound hassigned => simp [Stage.leavesCase, hfound, hassigned] at leaves
    | sign submission _ hfound =>
      have hsigned : current.state = .signed := by simpa [Stage.leavesCase, hfound] using leaves
      exact absurd hsigned hother
    | supersede submission caseId caseState _ hmoves hfound =>
      obtain ⟨-, hid⟩ := Db.case?_eq_some.mp hfound
      have hfinds : current.state = caseState := by
        simpa [Stage.findsCase, hmoves, hfound] using finds
      exact ⟨_, inserted rfl, hid.symm, hfinds.symm, rfl⟩
    | revoke request row caseState _ hmoves hfound =>
      obtain ⟨-, hid⟩ := Db.case?_eq_some.mp hfound
      have hfinds : current.state = caseState := by
        simpa [Stage.findsCase, hmoves, hfound] using finds
      exact ⟨_, inserted rfl, hid.symm, hfinds.symm, rfl⟩

end Steps

section Runs

variable {W : Type} {keccak_256 : Canonical.Bytes → Canonical.Digest}
  {recover : AttestationMessage → Text → Option Text} {s t : State W Db (Point Row Stage)}

def CasesFound (s : State W Db (Point Row Stage)) : Action W Given → Prop
  | .statement w _ => (s.point w).stage.findsCase (view s w) = true
  | _ => True

def CasesLeft (s : State W Db (Point Row Stage)) : Action W Given → Prop
  | .statement w _ => (s.point w).stage.leavesCase (view s w) = true
  | _ => True

theorem edges_maintain : (program keccak_256 recover).protocol.Maintains (W := W) CasesFound
    (fun _ => True) fun _ p => AlongEdges p.writes := by
  refine Program.writes_maintain (G := AlongEdges) (fun _ hmove => absurd hmove List.not_mem_nil)
    (fun first more hfirst hmore move hmove => ?_) ?_
  · rw [caseMoves_append, List.mem_append] at hmove
    exact hmove.elim (hfirst move) (hmore move)
  · intro s w given next changes writes allowed hran hrecord
    exact (step_of_program hran).edges hrecord allowed

theorem recorded_maintain : (program keccak_256 recover).protocol.Maintains (W := W)
    (fun s a => CasesFound s a ∧ CasesLeft s a) (fun _ => True)
    fun _ p => AllRecorded p.writes := by
  refine Program.writes_maintain (G := AllRecorded) (fun _ hmove => absurd hmove List.not_mem_nil)
    (fun first more hfirst hmore move hmove => ?_) ?_
  · rw [caseMoves_append, List.mem_append] at hmove
    rcases hmove with hmove | hmove
    · obtain ⟨row, hrow, hmatches⟩ := hfirst move hmove
      exact ⟨row, List.mem_append_left _ hrow, hmatches⟩
    · obtain ⟨row, hrow, hmatches⟩ := hmore move hmove
      exact ⟨row, List.mem_append_right _ hrow, hmatches⟩
  · intro s w given next changes writes allowed hran hrecord
    exact (step_of_program hran).recorded hrecord allowed.1 allowed.2

/-- A case that has come to its end is left as it is. -/
def StaysClosed (before after : Row) : Prop :=
  ∀ case, before = .case case → ∃ later, after = .case later ∧
    (case.state ∈ CaseState.closed → later.state = case.state)

theorem StaysClosed.refl (row : Row) : StaysClosed row row :=
  fun case hcase => ⟨case, hcase, fun _ => rfl⟩

theorem StaysClosed.trans {a b c : Row} (h : StaysClosed a b) (h' : StaysClosed b c) :
    StaysClosed a c := by
  intro case hcase
  obtain ⟨between, hbetween, hclosed⟩ := h case hcase
  obtain ⟨later, hlater, hclosed'⟩ := h' between hbetween
  refine ⟨later, hlater, fun hstate => ?_⟩
  have hsame := hclosed hstate
  rw [← hsame] at hstate ⊢
  exact hclosed' hstate

theorem staysClosed_of_edges {db : Db} {writes : List (Write Row)} (hfits : Fits db.rows writes)
    (edges : AlongEdges writes) :
    ∀ write ∈ writes, ∀ old ∈ write.old, StaysClosed old write.new := by
  rintro ⟨old, new⟩ hwrite row hold case rfl
  have hkey : Row.key (.case case) = Row.key new := hfits.old_key _ hwrite _ hold
  obtain rfl : old = some (.case case) := hold
  cases new with
  | case later =>
    refine ⟨later, rfl, fun hclosed => ?_⟩
    by_contra hchanged
    have hmove : ⟨later.id, case.state, later.state⟩ ∈ caseMoves writes := by
      refine List.mem_filterMap.mpr ⟨_, hwrite, ?_⟩
      simp [caseMove?, Ne.symm hchanged]
    have hedge : case.state.canTransition later.state = true := edges _ hmove
    rw [CaseState.not_canTransition_of_closed hclosed] at hedge
    cases hedge
  | _ => simp [Row.key] at hkey

theorem cases_maintain : (program keccak_256 recover).protocol.Maintains (W := W) CasesFound
    (fun db => Distinct Row.uniques db.rows ∧ True)
    fun db p => (program keccak_256 recover).Fitting db p ∧ AlongEdges p.writes :=
  Program.writes_maintains.and (edges_maintain.weaken fun _ _ allowed => allowed.1)

variable [DecidableEq W]

/-- In every run in which each signature, revocation and supersession finds its case so,
every change of a case's state is an edge from the state it has at that moment and a closed
case stays closed. Where no signature or draft changes a case, every change is recorded. -/
theorem cases_follow_machine
    (reached : ((reviewSystem keccak_256 recover W).restrict CasesFound).Reachable s) :
    (∀ w, Fits s.committed.rows (s.point w).writes ∧ AlongEdges (s.point w).writes) ∧
    (∀ labels t, ((reviewSystem keccak_256 recover W).restrict CasesFound).Run s labels t →
      ∀ case, .case case ∈ s.committed.rows → case.state ∈ CaseState.closed →
        ∃ later, .case later ∈ t.committed.rows ∧ later.id = case.id ∧ later.state = case.state) ∧
    (((reviewSystem keccak_256 recover W).restrict
        fun s a => CasesFound s a ∧ CasesLeft s a).Reachable s →
      ∀ w, AllRecorded (s.point w).writes) := by
  have rule : (program keccak_256 recover).protocol.Maintains (W := W) CasesFound
      (fun db => Distinct Row.uniques db.rows ∧ True)
      fun db p => (program keccak_256 recover).Fitting db p ∧ AlongEdges p.writes :=
    cases_maintain
  have base : ∀ db, StartsEmpty db →
      Distinct Row.uniques db.rows ∧ True := by
    rintro _ ⟨now, rfl⟩
    exact ⟨fun r hr => absurd hr (Table.not_mem_empty r), trivial⟩
  have sound := rule.reachable base reached
  refine ⟨fun w => ⟨(sound.relies w).1.fits, (sound.relies w).2⟩, fun labels t run case hcase hclosed => ?_,
    fun recorded w => ?_⟩
  · obtain ⟨later, hlater, hkey, hstays⟩ := Program.rows_follow rule run sound StaysClosed.refl
      (fun _ _ _ => StaysClosed.trans)
      (fun _ _ h => ⟨h.1.fits, staysClosed_of_edges h.1.fits h.2⟩) (.case case) hcase
    obtain ⟨later, rfl, hsame⟩ := hstays case rfl
    exact ⟨later, hlater, congrArg Prod.snd hkey, hsame hclosed⟩
  · exact (recorded_maintain.reachable (fun _ _ => trivial) recorded).relies w

/-! ## A signature on a cancelled case -/

def move (toState : CaseState) (expectedVersion : Nat) : List Given :=
  script (.moveCase ⟨units "case 1", toState, units "no longer needed", expectedVersion, none⟩)
    (units "transition 1") 2

def signing (steps : Nat) : List Given :=
  script (.submit (plainSubmit (units "attestation 1") (units "request 1"))) (units "transition 2")
    steps

/-- The case is cancelled after the signature request: the signature makes it signed. -/
theorem cases_leave_machine_cancelled :
    ∃ s, (reviewSystem snapshotKeccak recoverSigned Nat).Reachable s ∧
      (s.point 0).stage.isDone = true ∧ ∃ move ∈ caseMoves (s.point 0).writes, ¬ move.IsEdge ∧
        move.fromState = .cancelled ∧ move.toState = .signed := by
  have hrun : endsWith snapshotKeccak (readyToSign ++ [move .cancelled 2]) (signing 7)
      (fun _ p => p.stage.isDone && (caseMoves p.writes).any fun move =>
        !move.fromState.canTransition move.toState && move.fromState = .cancelled &&
          move.toState = .signed) = true := by
    decide +kernel
  obtain ⟨s, reached, hholds⟩ := exists_of_endsWith hrun
  obtain ⟨hdone, hmove⟩ := Bool.and_eq_true_iff.mp hholds
  obtain ⟨move, hmem, hmove⟩ := List.any_eq_true.mp hmove
  simp only [Bool.and_eq_true, Bool.not_eq_true', decide_eq_true_eq] at hmove
  obtain ⟨⟨hedge, hfrom⟩, hto⟩ := hmove
  refine ⟨s, reached, hdone, move, hmem, ?_, hfrom, hto⟩
  rw [CaseMove.IsEdge, hedge]
  exact Bool.false_ne_true

theorem permits_findsCase : (program keccak_256 recover).protocol.Permits (W := W)
    (fun db p => p.stage.findsCase (db.write p.writes)) CasesFound := by
  intro db w p hallowed
  refine ⟨trivial, fun given => ?_⟩
  rw [CasesFound, view, Protocol.only_point]
  exact hallowed

/-- A review that is signed and revoked. -/
theorem cases_follow_machine_revoked :
    ∃ s : State Nat Db (Point Row Stage),
      (∃ case, .case case ∈ s.committed.rows ∧ case.state = .revoked) ∧
      ∀ w, Fits s.committed.rows (s.point w).writes ∧ AlongEdges (s.point w).writes := by
  have hrun : (((program snapshotKeccak recoverSigned).protocol.inTurn
      (fun db p => p.stage.findsCase (db.write p.writes)) (Db.empty 0)
      (readyToSign ++ [signing 7, script (.revoke ⟨units "attestation 1", units "mistaken", none⟩)
        (units "transition 3") 5])).any fun db => db.rows.rows.any fun row => row.case?.any fun case =>
          case.state = .revoked) = true := by
    decide +kernel
  obtain ⟨db, hdb, hrun⟩ := Option.any_eq_true _ _ |>.mp hrun
  obtain ⟨row, hrow, hcase⟩ := List.any_eq_true.mp hrun
  obtain ⟨case, hcase, hstate⟩ := Option.any_eq_true _ _ |>.mp hcase
  have hmem : Row.case case ∈ db.rows := by
    cases row <;> cases hcase
    exact hrow
  have reached := Protocol.reachable_inTurn StartsEmpty permits_findsCase (0 : Nat) ⟨0, rfl⟩ hdb
  exact ⟨_, ⟨case, hmem, of_decide_eq_true hstate⟩, (cases_follow_machine reached).1⟩

end Runs

end MpcRegistry.Verification
