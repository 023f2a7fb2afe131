import MpcRegistry.Accounts.References

/-!
# Recoveries of one person are kept apart

Source: packages/db/migrations/0118_account_recovery_hardening.sql,
0128_suspension_closes_recovery.sql and 0132_final_review_state_machine.sql, from
`recovery_separation_conflict`. An approval looks for parts in the other kinds of recovery under
the lock of the person, which every approval holds until it commits.
-/
namespace MpcRegistry.Accounts
open Library WriteSet ReadCommitted Utf16

/-- An approved recovery: about whom, since when, and who asked for and approved it. -/
structure Approval where
  kind : Recovery
  subjectId : Uuid
  since : Nat
  proposer : Option Uuid
  decider : Uuid
  deriving DecidableEq, Repr

def Approval.Part (approval : Approval) (actor : Uuid) : Prop :=
  approval.proposer = some actor ∨ approval.decider = actor

/-- The approval that a row stands for, unless it has ended without effect. -/
def Row.Approved : Row → Approval → Prop
  | .emailChange row, a =>
    (row.state = .approved ∨ row.state = .completed ∨ row.closedReason ≠ none) ∧
      a.kind = .emailChange ∧ a.subjectId = row.subjectId ∧ row.decidedAt = some a.since ∧
      a.proposer = some row.requestedBySubjectId ∧ row.decidedBySubjectId = some a.decider
  | .mfaReset row, a => row.origin = .admin ∧ (row.state = .approved ∨ row.closedReason ≠ none) ∧
      a.kind = .mfaReset ∧ a.subjectId = row.subjectId ∧ row.decidedAt = some a.since ∧
      a.proposer = row.requestedBySubjectId ∧ row.decidedBySubjectId = some a.decider
  | .suspension row, a => (row.state = .approved ∨ row.closedReason ≠ none) ∧
      a.kind = .suspension ∧ a.subjectId = row.subjectId ∧ row.decidedAt = some a.since ∧
      a.proposer = some row.requestedBySubjectId ∧ row.decidedBySubjectId = some a.decider
  | _, _ => False

/-- Two approvals of different kinds for one person are 30 days apart if they share an actor. -/
def Approval.Separate (a b : Approval) : Prop :=
  a.subjectId = b.subjectId → a.kind ≠ b.kind → (∃ actor, a.Part actor ∧ b.Part actor) →
    a.since + days 30 ≤ b.since ∨ b.since + days 30 ≤ a.since

/-- The approval that a decision is about to write. -/
def Stage.Approves : Stage → Key → Approval → Prop
  | .decisionSeparated decision request _ now, k, a => decision.approve = true ∧
    k = request.row.key ∧
    a = ⟨request.kind, request.subjectId, now, request.requestedBy, decision.decidedBy⟩
  | _, _, _ => False

def approvals : Facts program Approval where
  states := Row.Approved
  agree _ := Approval.Separate
  guard a := lockOf .subjects a.subjectId
  intends p := p.stage.Approves
  excuses _ _ _ := False
  leads _ _ := True
  leads_refl _ := trivial
  leads_trans _ _ _ _ _ := trivial
  agree_grows _ h := h
  guarded h := by
    simp only [Approval.Separate, Classical.not_imp] at h
    exact ⟨by rw [lockOf, lockOf, h.1], .inl rfl⟩
  excuses_done _ h := h

section Effects

variable {view : Db} {stage next : Stage} {changes : List (Change Row)} {old new : Row}
  {a b : Approval}

theorem Approval.Separate.symm (h : a.Separate b) : b.Separate a := by
  intro hsubject hkind hactor
  obtain ⟨actor, hb, ha⟩ := hactor
  exact (h hsubject.symm (Ne.symm hkind) ⟨actor, ha, hb⟩).symm

theorem start_le_greatest (start : Nat) (others : List (Option Nat)) :
    start ≤ greatest start others := by
  induction others generalizing start with
  | nil => exact Nat.le_refl start
  | cons other rest ih => exact (Nat.le_max_left _ _).trans (ih _)

theorem le_greatest {start since : Nat} {others : List (Option Nat)} (h : some since ∈ others) :
    since ≤ greatest start others := by
  induction others generalizing start with
  | nil => cases h
  | cons other rest ih =>
    rcases List.mem_cons.mp h with rfl | h
    · exact (Nat.le_max_right start since).trans (start_le_greatest _ rest)
    · exact ih h

theorem Approval.Part.tookPart {requestedBy decidedBy : Option Uuid} {actor : Uuid}
    (h : a.Part actor) (hproposer : a.proposer = requestedBy) (hdecider : decidedBy = some a.decider) :
    tookPart requestedBy decidedBy actor = true := by
  rw [Accounts.tookPart, Bool.or_eq_true, decide_eq_true_eq, decide_eq_true_eq]
  rcases h with h | h
  · exact .inl (hproposer ▸ h)
  · exact .inr (h ▸ hdecider)

/-- Without a conflict, the actor has no recent part in a recovery of another kind. -/
theorem recentPart_of_no_conflict {subjectId actor : Uuid} {now : Nat} {side : Recovery}
    (h : view.recoverySeparationConflict subjectId actor now side = false) :
    (.emailChange ≠ side → view.recentEmailChangePart subjectId actor now = false) ∧
    (.mfaReset ≠ side → view.recentMfaResetPart subjectId actor now = false) ∧
    (.suspension ≠ side → view.recentSuspensionPart subjectId actor now = false) := by
  cases side with
  | emailChange =>
    obtain ⟨hreset, hsuspension⟩ := Bool.or_eq_false_iff.mp h
    exact ⟨fun hne => absurd rfl hne, fun _ => hreset, fun _ => hsuspension⟩
  | mfaReset =>
    obtain ⟨hchange, hsuspension⟩ := Bool.or_eq_false_iff.mp h
    exact ⟨fun _ => hchange, fun hne => absurd rfl hne, fun _ => hsuspension⟩
  | suspension =>
    obtain ⟨hchange, hreset⟩ := Bool.or_eq_false_iff.mp h
    exact ⟨fun _ => hchange, fun _ => hreset, fun hne => absurd rfl hne⟩

/-- An approved reset or suspension that has not ended without effect counts. -/
theorem decision_counts {state : DecisionState} {closedReason : Option ClosedReason}
    (h : state = .approved ∨ closedReason ≠ none) :
    ((decide (state = .pending) || decide (state = .approved)) || closedReason.isSome) = true := by
  rcases h with h | h
  · simp [h]
  · simp [Option.isSome_iff_ne_none.mpr h]

/-- Without a conflict, the approvals of other kinds that the actor has a part in are 30 days
old. -/
theorem old_of_no_conflict {subjectId actor : Uuid} {now : Nat} {side : Recovery} {r : Row}
    (h : view.recoverySeparationConflict subjectId actor now side = false) (hr : r ∈ view.rows)
    (ha : r.Approved a) (hsubject : a.subjectId = subjectId) (hkind : a.kind ≠ side)
    (hpart : a.Part actor) : a.since + days 30 ≤ now := by
  obtain ⟨hchanges, hresets, hsuspensions⟩ := recentPart_of_no_conflict h
  cases r with
  | emailChange row =>
    obtain ⟨hcounts, hchange, hsame, hsince, hproposer, hdecider⟩ := ha
    have hrow := List.any_eq_false.mp (hchanges (hchange ▸ hkind)) row
      ((Db.mem_all_iff Row.emailChange?_eq_some).mpr hr)
    have hle : a.since ≤ greatest row.requestedAt [row.decidedAt, row.completedAt] :=
      le_greatest (hsince ▸ List.mem_cons_self)
    have htook := hpart.tookPart hproposer hdecider
    have hcounted : ((decide (row.state = .pending) || decide (row.state = .approved) ||
        decide (row.state = .completed)) || row.closedReason.isSome) = true := by
      rcases hcounts with h | h | h
      · simp [h]
      · simp [h]
      · simp [Option.isSome_iff_ne_none.mpr h]
    simp only [hsame.symm.trans hsubject, decide_true, Bool.true_and, hcounted, htook,
      decide_eq_true_eq] at hrow
    omega
  | mfaReset row =>
    obtain ⟨horigin, hcounts, hreset, hsame, hsince, hproposer, hdecider⟩ := ha
    have hrow := List.any_eq_false.mp (hresets (hreset ▸ hkind)) row
      ((Db.mem_all_iff Row.mfaReset?_eq_some).mpr hr)
    have hle : a.since ≤ greatest row.requestedAt [row.decidedAt] :=
      le_greatest (hsince ▸ List.mem_cons_self)
    have htook := hpart.tookPart hproposer hdecider
    simp only [hsame.symm.trans hsubject, horigin, decide_true, Bool.true_and,
      decision_counts hcounts, htook, decide_eq_true_eq] at hrow
    omega
  | suspension row =>
    obtain ⟨hcounts, hsuspension, hsame, hsince, hproposer, hdecider⟩ := ha
    have hrow := List.any_eq_false.mp (hsuspensions (hsuspension ▸ hkind)) row
      ((Db.mem_all_iff Row.suspension?_eq_some).mpr hr)
    have hle : a.since ≤ greatest row.requestedAt [row.decidedAt] :=
      le_greatest (hsince ▸ List.mem_cons_self)
    have htook := hpart.tookPart hproposer hdecider
    simp only [hsame.symm.trans hsubject, decide_true, Bool.true_and, decision_counts hcounts,
      htook, decide_eq_true_eq] at hrow
    omega
  | _ => exact ha.elim

/-- What is ended was not approved, or it stands as it did. -/
theorem Ends.approved {now : Nat} (h : Ends now old new) (hok : old.Ok) (hnew : new.Approved a) :
    old.Approved a := by
  cases h with
  | change row reason isOpen =>
    obtain ⟨-, hkind, hsubject, hsince, hproposer, hdecider⟩ := hnew
    have hdecider : row.decidedBySubjectId = some a.decider := hdecider
    have happroved : row.state = .approved := by
      rcases Bool.or_eq_true_iff.mp isOpen with hpending | happroved
      · rw [(hok.2.2 (of_decide_eq_true hpending)).1] at hdecider
        cases hdecider
      · exact of_decide_eq_true happroved
    exact ⟨.inl happroved, hkind, hsubject, hsince, hproposer, hdecider⟩
  | reset row _ pending =>
    have hdecider : row.decidedBySubjectId = some a.decider := hnew.2.2.2.2.2.2
    rw [(hok.2 pending).1] at hdecider
    cases hdecider
  | window row approved => exact ⟨hnew.1, .inl approved, hnew.2.2⟩
  | suspension row _ pending =>
    have hdecider : row.decidedBySubjectId = some a.decider := hnew.2.2.2.2.2
    rw [(hok.2.2 pending).1] at hdecider
    cases hdecider
  | _ => exact hnew.elim

theorem Approval.eq_mk {kind : Recovery} {subjectId decider : Uuid} {since : Nat}
    {proposer : Option Uuid} (hkind : a.kind = kind) (hsubject : a.subjectId = subjectId)
    (hsince : since = a.since) (hproposer : a.proposer = proposer) (hdecider : decider = a.decider) :
    a = ⟨kind, subjectId, since, proposer, decider⟩ := by
  subst hkind hsubject hsince hproposer hdecider
  rfl

/-- A decided request is approved with the decision's own approval, if at all. -/
theorem RequestRow.approves {decision : Decision} {request : RequestRow} {held : Locks} {now : Nat}
    (hundecided : Undecided decision request held) (hok : request.row.Ok)
    (h : (request.decide decision now).Approved a) :
    decision.approve = true ∧
      a = ⟨request.kind, request.subjectId, now, request.requestedBy, decision.decidedBy⟩ := by
  cases request with
  | emailChange row =>
    obtain ⟨hcounts, hkind, hsubject, hsince, hproposer, hdecider⟩ := h
    have hclosed := (hok.2.2 (of_decide_eq_true hundecided.pending)).2
    refine ⟨?_, Approval.eq_mk hkind hsubject (Option.some.inj hsince) hproposer
      (Option.some.inj hdecider)⟩
    by_contra hrejects
    simp [Decision.emailChangeState, hrejects, hclosed] at hcounts
  | mfaReset row =>
    obtain ⟨-, hcounts, hkind, hsubject, hsince, hproposer, hdecider⟩ := h
    have hclosed := (hok.2 (of_decide_eq_true hundecided.pending)).2
    refine ⟨?_, Approval.eq_mk hkind hsubject (Option.some.inj hsince) hproposer
      (Option.some.inj hdecider)⟩
    by_contra hrejects
    simp [Decision.state, hrejects, hclosed] at hcounts
  | suspension row =>
    obtain ⟨hcounts, hkind, hsubject, hsince, hproposer, hdecider⟩ := h
    have hclosed := (hok.2.2 (of_decide_eq_true hundecided.pending)).2
    refine ⟨?_, Approval.eq_mk hkind hsubject (Option.some.inj hsince) hproposer
      (Option.some.inj hdecider)⟩
    by_contra hrejects
    simp [Decision.state, hrejects, hclosed] at hcounts

theorem Effect.approves {old : Option Row} (h : Effect view changes stage next old new)
    (hchecked : stage.Checked) (hok : ∀ r ∈ old, r.Ok) (hnew : new.Approved a) :
    (∃ r ∈ old, r.Approved a) ∨ stage.Approves new.key a := by
  cases h with
  | ended _ _ _ old _ ends => exact .inl ⟨old, rfl, ends.approved (hok old rfl) hnew⟩
  | rejected decision request _ _ _ _ =>
    obtain ⟨happrove, rfl⟩ := RequestRow.approves hchecked.1 (hok _ rfl) hnew
    exact .inr ⟨happrove, request.decide_key _ _, rfl⟩
  | approved decision request _ _ _ _ _ _ _ =>
    obtain ⟨happrove, rfl⟩ := RequestRow.approves hchecked.1 (hok _ rfl) hnew
    exact .inr ⟨happrove, request.decide_key _ _, rfl⟩
  | completed _ change _ _ _ _ =>
    exact .inl ⟨.emailChange change, rfl, .inl hchecked.1.approved, hnew.2⟩
  | addressTaken request _ _ _ =>
    cases request with
    | invite _ => exact hnew.elim
    | change _ => cases hnew.2.2.2.1
  | proposed proposal _ _ =>
    unfold Proposal.row at hnew
    split at hnew
    · cases hnew.2.2.2.2.1
    · cases hnew.2.2.2.1
  | _ => exact hnew.elim

theorem Stage.Approves.locked {k : Key} (h : stage.Approves k a) (hchecked : stage.Checked) :
    lockOf .subjects a.subjectId ∈ stage.held := by
  cases stage with
  | decisionSeparated decision request held now =>
    obtain ⟨-, -, rfl⟩ := h
    exact hchecked.2
  | _ => exact h.elim

theorem Stage.Approves.unique {k k' : Key} (h : stage.Approves k a) (h' : stage.Approves k' b) :
    k = k' := by
  cases stage with
  | decisionSeparated _ _ _ _ => exact h.2.1.trans h'.2.1.symm
  | _ => exact h.elim

/-- A decision that is about to be written has been checked against every other approval. -/
theorem Moves.approves {k : Key} (h : Moves view stage next changes) (hchecked : next.Checked)
    (happroves : next.Approves k a) : changes = [] ∧ approvals.Clear view.rows k a := by
  cases h with
  | decisionRejected decision _ _ _ rejects =>
    rw [happroves.1] at rejects
    cases rejects
  | decisionSeparated decision request held now decider proposer =>
    obtain ⟨-, rfl, rfl⟩ := happroves
    refine ⟨rfl, fun r hr _ b hb => ?_⟩
    have hseparate : Approval.Separate
        ⟨request.kind, request.subjectId, now, request.requestedBy, decision.decidedBy⟩ b := by
      intro hsubject hkind hactor
      obtain ⟨actor, hpart, hpart'⟩ := hactor
      refine .inr (old_of_no_conflict ?_ hr hb hsubject.symm (hchecked.1.kind ▸ Ne.symm hkind) hpart')
      rcases hpart with hpart | rfl
      · have hpart : request.requestedBy = some actor := hpart
        simpa [hpart] using proposer
      · exact decider
    exact ⟨hseparate, hseparate.symm⟩
  | _ => exact happroves.elim

end Effects

section Runs

variable {db : Db} {p : Point Row Stage} {next : Stage} {changes : List (Change Row)}
  {writes : List (Write Row)} {k : Key} {a b : Approval}

theorem Ran.approves (h : Ran db p next changes writes) (hfresh : approvals.Fresh writes k a) :
    p.stage.Approves k a := by
  obtain ⟨write, hwrite, rfl, hnew, hold⟩ := hfresh
  exact ((h.effects write hwrite).approves h.reads.checked
    (fun old hmem => h.reads.ok old (h.old_mem hwrite hmem)) hnew).resolve_left hold

theorem locked_of_lockOf {q : Point Row Stage} (h : lockOf .subjects a.subjectId ∈ q.stage.held) :
    approvals.Locked q a :=
  ⟨.exclusive, List.mem_append_left _ h, fun _ => rfl⟩

/-- A statement keeps the approvals apart. -/
theorem Ran.approvals_kept (h : Ran db p next changes writes) (kept : approvals.Kept db.rows p) :
    approvals.Kept db.rows ⟨next, p.writes ++ writes⟩ := by
  refine kept.statement h.fits (fun _ _ _ _ => trivial) h.locks_subset ?_ ?_ ?_ ?_
  · intro k a hfresh
    exact (locked_of_lockOf ((h.approves hfresh).locked h.reads.checked)).of_subset h.locks_subset
  · intro k a hfresh s hs hother b hb
    have hclear := (kept.ready k a (h.approves hfresh)).2
    rcases approvals.states_putAll h.fits hs hb with ⟨r, hr, hkey, hrb⟩ | hfresh'
    · have hagree := hclear r hr (hkey ▸ hother) b hrb
      exact ⟨.inl hagree.1, .inl hagree.2⟩
    · exact absurd ((h.approves hfresh').unique (h.approves hfresh)) hother
  · exact fun _ _ _ _ _ _ _ _ _ hexcused => hexcused.elim
  · intro k a happroves
    obtain ⟨rfl, hclear⟩ := h.moves.approves h.reads_next.checked happroves
    obtain rfl := record_nil.mp h.recorded
    exact ⟨locked_of_lockOf (happroves.locked h.reads_next.checked), hclear⟩

variable {W : Type}

theorem approvals_maintain :
    program.protocol.Maintains (fun (s : State W Db (Point Row Stage)) (_ : Action W Given) =>
        True ∧ program.protocol.Sound WellFormed Standing s)
      (fun db => approvals.Consistent db.rows) (fun db p => approvals.Kept db.rows p) := by
  refine approvals.maintains (fun _ _ h => h) (fun s a allowed w => (allowed.2.relies w).1.1.fits) ?_
  intro s w input next changes writes kept allowed hran hrecord
  exact ((allowed.2.relies w).1.2.ran hran hrecord).approvals_kept kept

theorem Founded.approvals {db : Db} (h : Founded db) : approvals.Consistent db.rows := by
  intro r hr s _ _ c _ hc
  obtain ⟨person, rfl⟩ := h.people r hr
  exact hc.elim

/-- In every state that is reached, two approved recoveries of different kinds for one person,
neither of which has ended without effect, are 30 days apart if anyone proposed or approved
both. -/
theorem recoveries_separate [DecidableEq W] {s : State W Db (Point Row Stage)}
    (reached : (accounts W Founded).Reachable s) {r r' : Row} (hr : r ∈ s.committed.rows)
    (hr' : r' ∈ s.committed.rows) (ha : r.Approved a) (hb : r'.Approved b)
    (subject : a.subjectId = b.subjectId) (kind : a.kind ≠ b.kind)
    (actor : ∃ actor, a.Part actor ∧ b.Part actor) :
    a.since + days 30 ≤ b.since ∨ b.since + days 30 ≤ a.since := by
  have sound := (standing_maintains.and approvals_maintain).reachable
    (fun db h => ⟨Founded.wellFormed h, Founded.approvals h⟩) (reached.restrict fun _ _ => trivial)
  have hother : r.key ≠ r'.key := by
    intro hkey
    obtain rfl := Table.eq_of_key hr hr' hkey
    cases r with
    | emailChange row => exact kind (ha.2.1.trans hb.2.1.symm)
    | mfaReset row => exact kind (ha.2.2.1.trans hb.2.2.1.symm)
    | suspension row => exact kind (ha.2.1.trans hb.2.1.symm)
    | _ => exact ha.elim
  exact sound.committed.2 r hr r' hr' hother a b ha hb subject kind actor

/-- Person 1 proposes a reset for person 3 and, 31 days later, their suspension. -/
def twice : List (ReadCommitted.Action Bool Given) :=
  script true (.propose ⟨none, 10, 20, 3, 1⟩) 5 ++
    script true (.decide ⟨.mfaReset, 10, 20, 2, true, 1, 0, 0⟩) 12 ++
    [.outside ⟨.propose ⟨none, 10, 20, 3, 1⟩, days 31⟩] ++
    script true (.propose ⟨some .suspend, 10, 21, 3, 1⟩) 5 ++
    script true (.decide ⟨.suspension, 10, 21, 4, true, 1, 0, 0⟩) 27

/-- Both are approved in the end, and 30 days lie between them. -/
theorem recoveries_separate_twice :
    ∃ s : State Bool Db (Point Row Stage), (accounts Bool Founded).Reachable s ∧
      ∃ reset suspension, .mfaReset reset ∈ s.committed.rows ∧
        .suspension suspension ∈ s.committed.rows ∧
        (Row.mfaReset reset).Approved ⟨.mfaReset, 3, 0, some 1, 2⟩ ∧
        (Row.suspension suspension).Approved ⟨.suspension, 3, days 31, some 1, 4⟩ ∧
        (0 + days 30 ≤ days 31 ∨ days 31 + days 30 ≤ 0) := by
  let reset : MfaResetRequest :=
    ⟨20, 10, 3, some 1, 0, .approved, some 2, some 0, some (hours 24), .admin, none, 2⟩
  let suspension : SubjectSuspension :=
    ⟨21, 10, 3, .suspend, 1, days 31, .approved, some 4, some (days 31), none, none, 2⟩
  have hrun : (program.protocol.follow (fun _ _ => true) (program.protocol.atRest people) twice).any
      (fun s : State Bool Db (Point Row Stage) => s.committed.rows.rows.contains (.mfaReset reset) &&
        s.committed.rows.rows.contains (.suspension suspension)) = true := by
    decide +kernel
  obtain ⟨s, hs, hrun⟩ := (Option.any_eq_true _ _).mp hrun
  obtain ⟨hreset, hsuspension⟩ := Bool.and_eq_true_iff.mp hrun
  have hreset : .mfaReset reset ∈ s.committed.rows := List.contains_iff_mem.mp hreset
  have hsuspension : .suspension suspension ∈ s.committed.rows := List.contains_iff_mem.mp hsuspension
  have ha : (Row.mfaReset reset).Approved ⟨.mfaReset, 3, 0, some 1, 2⟩ :=
    ⟨rfl, .inl rfl, rfl, rfl, rfl, rfl, rfl⟩
  have hb : (Row.suspension suspension).Approved ⟨.suspension, 3, days 31, some 1, 4⟩ :=
    ⟨.inl rfl, rfl, rfl, rfl, rfl, rfl⟩
  have reached : ((accounts Bool Founded).restrict fun _ _ => True).Reachable s :=
    Protocol.reachable_follow Founded (fun _ _ _ => trivial) people_founded hs
  exact ⟨s, reached.of_restrict, reset, suspension, hreset, hsuspension, ha, hb,
    recoveries_separate reached.of_restrict hreset hsuspension ha hb rfl (by decide)
      ⟨1, .inl rfl, .inl rfl⟩⟩

end Runs

end MpcRegistry.Accounts
