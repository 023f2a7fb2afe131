import MpcRegistry.Accounts.References

/-!
# What a suspension leaves in force

Source: packages/db/migrations/0128_suspension_closes_recovery.sql and
0132_final_review_state_machine.sql, `decide_subject_suspension` and `refuse_suspended_actor`.
An approved suspension closes what it finds, statement by statement. What others begin
meanwhile does not escape it: whoever acts has read the actor under a share lock, which a
suspension and an action of its person cannot hold at once.
-/
namespace MpcRegistry.Accounts
open Library WriteSet ReadCommitted

/-- How someone has a part in what is in force: in an open change of address, a pending reset,
the enrolment window of an approved one, a pending suspension or a pending invitation. -/
inductive Force where
  | change (part : Part)
  | resetAbout
  | resetProposed
  | window (closesAt : Nat)
  | suspensionProposed
  | invited
  deriving DecidableEq, Repr

def Row.InForce : Row → Force → Uuid → Prop
  | .emailChange row, .change part, id => row.openBy part id = true
  | .mfaReset row, .resetAbout, id => row.subjectId = id ∧ row.state = .pending
  | .mfaReset row, .resetProposed, id => row.requestedBySubjectId = some id ∧ row.state = .pending
  | .mfaReset row, .window closesAt, id => row.decidedBySubjectId = some id ∧ row.state = .approved ∧
    row.closedReason = none ∧ row.enrolmentWindowUntil = some closesAt
  | .suspension row, .suspensionProposed, id => row.requestedBySubjectId = id ∧ row.state = .pending
  | .invitation row, .invited, id => row.invitedBySubjectId = id ∧ row.state = .pending
  | _, _, _ => False

/-- The UPDATE of a suspension that closes it. -/
def Force.update : Force → Uuid → Update
  | .change part, id => .closeChanges part id
  | .resetAbout, id => .closeResets .subject id
  | .resetProposed, id => .closeResets .proposer id
  | .window _, id => .closeResets .approver id
  | .suspensionProposed, id => .closeSuspensions id
  | .invited, id => .closeInvitations id

/-- It does not end by itself by then. -/
def Force.LastsBeyond : Force → Nat → Prop
  | .window closesAt, since => since < closesAt
  | _, _ => True

inductive Fact where
  | suspended (id : Uuid) (since : Nat)
  | inForce (id : Uuid) (force : Force)
  deriving DecidableEq, Repr

def Row.Suspended : Row → Uuid → Nat → Prop
  | .subject row, id, since => row.id = id ∧ row.suspendedAt = some since
  | _, _, _ => False

def Row.States (row : Row) : Fact → Prop
  | .suspended id since => row.Suspended id since
  | .inForce id force => row.InForce force id

/-- What is in force of someone suspended ends by itself by then. -/
def Fact.Agree : Fact → Fact → Prop
  | .suspended id since, .inForce id' force => id = id' → ¬ force.LastsBeyond since
  | _, _ => True

def Fact.guard : Fact → Lock Key UniqueEntry × LockMode
  | .suspended id _ => lockOf .subjects id
  | .inForce id _ => shareOf .subjects id

/-- An UPDATE that closes it is still to come. -/
def Stage.Closes : Stage → Fact → Fact → Prop
  | .ending _ now _ updates, .suspended id since, .inForce id' force =>
    id' = id ∧ since = now ∧ force.update id ∈ updates
  | _, _, _ => False

theorem Stage.Closes.cases {stage : Stage} {c d : Fact} (h : stage.Closes c d) :
    ∃ held now status updates id force, stage = .ending held now status updates ∧
      c = .suspended id now ∧ d = .inForce id force ∧ force.update id ∈ updates := by
  cases stage with
  | ending held now status updates =>
    cases c with
    | inForce _ _ => exact h.elim
    | suspended id since =>
      cases d with
      | suspended _ _ => exact h.elim
      | inForce id' force =>
        obtain ⟨rfl, rfl, hmem⟩ := h
        exact ⟨_, _, _, _, _, _, rfl, rfl, rfl, hmem⟩
  | _ => exact h.elim

def AddressRequest.people : AddressRequest → List Uuid
  | invite _ => []
  | change request => [request.subjectId]

def Proposal.people (proposal : Proposal) : List Uuid :=
  proposal.requestedBy :: if proposal.action = none then [proposal.subjectId] else []

/-- The people that the transaction has found active, under locks that it keeps. -/
def Stage.people : Stage → List Uuid
  | .changeSubjectLocked request _ => [request.subjectId]
  | .changeSeparated request _ => [request.subjectId]
  | .addressWanted request _ _ => request.people
  | .addressLocked request _ _ => request.people
  | .invitationsExpired request _ _ => request.people
  | .changesExpired request _ _ => request.people
  | .addressFree request _ _ => request.people
  | .proposerLocked proposal _ => [proposal.requestedBy]
  | .proposalChecked proposal _ => proposal.people
  | .proposalSeparated proposal _ => proposal.people
  | _ => []

def suspensions : Facts program Fact where
  states := Row.States
  agree _ := Fact.Agree
  guard := Fact.guard
  intends p k c := k.1 ≠ .subjects ∧ ∃ id ∈ p.stage.people, ∃ force, c = .inForce id force
  excuses := Stage.Closes
  leads _ _ := True
  leads_refl _ := trivial
  leads_trans _ _ _ _ _ := trivial
  agree_grows _ h := h
  guarded {_ c d} h := by
    cases c with
    | inForce _ _ => exact absurd trivial h
    | suspended id since =>
      cases d with
      | suspended _ _ => exact absurd trivial h
      | inForce id' force =>
        simp only [Fact.Agree, Classical.not_imp] at h
        exact ⟨by rw [Fact.guard, Fact.guard, lockOf, shareOf, h.1], .inl rfl⟩
  excuses_done hdone h := by
    obtain ⟨held, now, status, updates, id, force, rfl, -, -, hmem⟩ := h.cases
    cases updates with
    | nil => exact absurd hmem List.not_mem_nil
    | cons _ _ => cases hdone

section Effects

variable {view : Db} {stage next : Stage} {changes : List (Change Row)} {old new : Row} {c : Fact}
  {id : Uuid} {force : Force} {now : Nat}

/-- Nothing comes into force by being ended. -/
theorem Ends.states (h : Ends now old new) (hnew : new.States c) : old.States c := by
  cases c with
  | suspended _ _ => cases h <;> exact hnew.elim
  | inForce id force =>
    cases h with
    | change row reason isOpen =>
      cases force with
      | change part =>
        cases part <;> simp [Row.States, Row.InForce, EmailChangeRequest.openBy,
          EmailChangeRequest.close, EmailChangeRequest.isOpen] at hnew
      | _ => exact hnew.elim
    | reset row reason pending =>
      cases force <;> simp [Row.States, Row.InForce, MfaResetRequest.reject] at hnew
    | window row approved =>
      cases force <;> simp [Row.States, Row.InForce, MfaResetRequest.closeWindow, approved] at hnew
    | suspension row reason pending =>
      cases force <;> simp [Row.States, Row.InForce, SubjectSuspension.reject] at hnew
    | invitation row reason pending =>
      cases force <;> simp [Row.States, Row.InForce, Invitation.close] at hnew
    | _ => exact hnew.elim

/-- The UPDATE closes what does not end by itself. -/
theorem Row.InForce.closed (h : old.InForce force id) (hlasts : force.LastsBeyond now) :
    ∃ new, (force.update id).row now view old = some new ∧ ¬ new.InForce force id := by
  cases old with
  | emailChange row =>
    cases force with
    | change part =>
      refine ⟨.emailChange (row.close (some part.closedReason)), if_pos h, ?_⟩
      cases part <;> simp [InForce, EmailChangeRequest.openBy, EmailChangeRequest.close,
        EmailChangeRequest.isOpen]
    | _ => exact h.elim
  | mfaReset row =>
    cases force with
    | resetAbout => exact ⟨_, if_pos h, by simp [InForce, MfaResetRequest.reject]⟩
    | resetProposed => exact ⟨_, if_pos h, by simp [InForce, MfaResetRequest.reject]⟩
    | window closesAt =>
      obtain ⟨hdecider, happroved, hopen, hcloses⟩ := h
      have hstands : row.enrolmentWindowUntil.any (now < ·) = true := by
        rw [hcloses]
        exact decide_eq_true hlasts
      refine ⟨.mfaReset row.closeWindow, if_pos ⟨hdecider, happroved, hopen, hstands⟩, ?_⟩
      simp [InForce, MfaResetRequest.closeWindow]
    | _ => exact h.elim
  | suspension row =>
    cases force with
    | suspensionProposed => exact ⟨_, if_pos h, by simp [InForce, SubjectSuspension.reject]⟩
    | _ => exact h.elim
  | invitation row =>
    cases force with
    | invited => exact ⟨_, if_pos h, by simp [InForce, Invitation.close]⟩
    | _ => exact h.elim
  | _ => exact h.elim

/-- How someone comes to be suspended, or something of theirs into force. -/
inductive Gained (view : Db) : Stage → Stage → Fact → Prop where
  | suspended (decision : Decision) (row : SubjectSuspension) (held held' : Locks) (now : Nat)
      (subject : Subject) (subjectId : subject.id = row.subjectId) :
    Gained view (.decisionSeparated decision (.suspension row) held now)
      (.ending held' now .decided (suspensionUpdates subject)) (.suspended subject.id now)
  | decided (decision : Decision) (request : RequestRow) (held : Locks) (now : Nat)
      (updates : List Update) (force : Force) (active : view.Active decision.decidedBy) :
    Gained view (.decisionSeparated decision request held now)
      (.ending (shareOf .subjects decision.decidedBy :: held) now .decided updates)
      (.inForce decision.decidedBy force)
  | asked (request : AddressRequest) (held : Locks) (now : Nat) (force : Force)
      (active : view.Active request.actor) :
    Gained view (.addressFree request held now)
      (.ending (shareOf .subjects request.actor :: held) now .created []) (.inForce request.actor force)
  | relied (stage next : Stage) (id : Uuid) (force : Force) (relies : id ∈ stage.people)
      (ending : next.people = []) : Gained view stage next (.inForce id force)

theorem RequestRow.decide_states {decision : Decision} {request : RequestRow} {held : Locks}
    (hundecided : Undecided decision request held) (hnew : (request.decide decision now).States c) :
    request.row.States c ∨ decision.approve = true ∧ ∃ force, c = .inForce decision.decidedBy force := by
  cases c with
  | suspended _ _ => cases request <;> exact hnew.elim
  | inForce id force =>
    cases request with
    | emailChange row =>
      have hpending : row.state = .pending := of_decide_eq_true hundecided.pending
      cases force with
      | change part =>
        cases part with
        | subject =>
          have hid := (Bool.and_eq_true_iff.mp hnew).1
          exact .inl (Bool.and_eq_true_iff.mpr ⟨hid, by simp [EmailChangeRequest.isOpen, hpending]⟩)
        | proposer =>
          have hid := (Bool.and_eq_true_iff.mp hnew).1
          exact .inl (Bool.and_eq_true_iff.mpr ⟨hid, by simp [EmailChangeRequest.isOpen, hpending]⟩)
        | approver =>
          obtain ⟨hid, hstate⟩ := Bool.and_eq_true_iff.mp hnew
          have hid : some decision.decidedBy = some id := of_decide_eq_true hid
          have hstate : decision.emailChangeState = .approved := of_decide_eq_true hstate
          refine .inr ⟨?_, _, by rw [Option.some.inj hid]⟩
          by_contra hrejects
          simp [Decision.emailChangeState, hrejects] at hstate
      | _ => exact hnew.elim
    | mfaReset row =>
      cases force with
      | resetAbout => exact absurd hnew.2 decision.state_ne_pending
      | resetProposed => exact absurd hnew.2 decision.state_ne_pending
      | window closesAt =>
        have hid : some decision.decidedBy = some id := hnew.1
        have hstate : decision.state = .approved := hnew.2.1
        refine .inr ⟨?_, _, by rw [Option.some.inj hid]⟩
        by_contra hrejects
        simp [Decision.state, hrejects] at hstate
      | _ => exact hnew.elim
    | suspension row =>
      cases force with
      | suspensionProposed => exact absurd hnew.2 decision.state_ne_pending
      | _ => exact hnew.elim

theorem AddressRequest.row_states {request : AddressRequest} (hnew : (request.row now).States c) :
    ∃ id force, c = .inForce id force ∧ (id ∈ request.people ∨ id = request.actor) := by
  cases c with
  | suspended _ _ => cases request <;> exact hnew.elim
  | inForce id force =>
    refine ⟨id, force, rfl, ?_⟩
    cases request with
    | invite request =>
      cases force with
      | invited => exact .inr hnew.1.symm
      | _ => exact hnew.elim
    | change request =>
      cases force with
      | change part =>
        cases part with
        | subject =>
          have hid : request.subjectId = id := of_decide_eq_true (Bool.and_eq_true_iff.mp hnew).1
          exact .inl (List.mem_singleton.mpr hid.symm)
        | proposer =>
          have hid : request.requestedBy = id := of_decide_eq_true (Bool.and_eq_true_iff.mp hnew).1
          exact .inr hid.symm
        | approver =>
          simp [Row.States, Row.InForce, AddressRequest.row, EmailChangeRequest.openBy] at hnew
      | _ => exact hnew.elim

theorem Proposal.row_states {proposal : Proposal} (hnew : (proposal.row now).States c) :
    ∃ id ∈ proposal.people, ∃ force, c = .inForce id force := by
  unfold Proposal.row at hnew
  unfold Proposal.people
  split at hnew
  next haction =>
    cases c with
    | suspended _ _ => exact hnew.elim
    | inForce id force =>
      refine ⟨id, ?_, force, rfl⟩
      cases force with
      | resetAbout => simp [haction, hnew.1.symm]
      | resetProposed => exact List.mem_cons.mpr (.inl (Option.some.inj hnew.1).symm)
      | window _ => cases hnew.1
      | _ => exact hnew.elim
  · cases c with
    | suspended _ _ => exact hnew.elim
    | inForce id force =>
      refine ⟨id, ?_, force, rfl⟩
      cases force with
      | suspensionProposed => exact List.mem_cons.mpr (.inl hnew.1.symm)
      | _ => exact hnew.elim

theorem Effect.gained {old : Option Row} (h : Effect view changes stage next old new)
    (hchecked : stage.Checked) (hnew : new.States c) :
    (∃ r ∈ old, r.States c) ∨ Gained view stage next c := by
  cases h with
  | ended _ _ _ old _ ends => exact .inl ⟨old, rfl, ends.states hnew⟩
  | addressTaken request held now active =>
    obtain ⟨id, force, rfl, hid | rfl⟩ := AddressRequest.row_states hnew
    · exact .inr (.relied _ _ _ _ hid rfl)
    · exact .inr (.asked _ _ _ _ active)
  | invitationRevoked _ _ _ _ =>
    cases c with
    | suspended _ _ => exact hnew.elim
    | inForce id force =>
      cases force <;> simp [Row.States, Row.InForce, Invitation.revoke] at hnew
  | personInvited _ _ _ _ _ =>
    cases c with
    | suspended _ _ => cases hnew.2
    | inForce _ _ => exact hnew.elim
  | invitationAccepted _ _ _ _ _ =>
    cases c with
    | suspended _ _ => exact hnew.elim
    | inForce id force =>
      cases force <;> simp [Row.States, Row.InForce, Invitation.accept] at hnew
  | rejected decision request _ _ _ rejects =>
    rcases RequestRow.decide_states hchecked.1 hnew with hold | ⟨happroves, -⟩
    · exact .inl ⟨_, rfl, hold⟩
    · rw [rejects] at happroves
      cases happroves
  | approved decision request _ _ _ _ _ active _ =>
    rcases RequestRow.decide_states hchecked.1 hnew with hold | ⟨-, force, rfl⟩
    · exact .inl ⟨_, rfl, hold⟩
    · exact .inr (.decided _ _ _ _ _ _ active)
  | suspended decision row held now subject _ subjectId =>
    cases c with
    | suspended id since =>
      obtain ⟨rfl, hsince⟩ := hnew
      cases hsince
      exact .inr (.suspended _ _ _ _ _ _ subjectId)
    | inForce _ _ => exact hnew.elim
  | reinstated _ _ _ _ _ _ _ =>
    cases c with
    | suspended _ _ => cases hnew.2
    | inForce _ _ => exact hnew.elim
  | moved _ _ _ _ subject _ _ =>
    cases c with
    | suspended _ _ => exact .inl ⟨.subject subject, rfl, hnew⟩
    | inForce _ _ => exact hnew.elim
  | completed _ _ _ _ _ _ =>
    cases c with
    | suspended _ _ => exact hnew.elim
    | inForce id force =>
      cases force with
      | change part =>
        cases part <;> simp [Row.States, Row.InForce, EmailChangeRequest.openBy,
          EmailChangeRequest.complete, EmailChangeRequest.isOpen] at hnew
      | _ => exact hnew.elim
  | proposed proposal _ _ =>
    obtain ⟨id, hid, force, rfl⟩ := Proposal.row_states hnew
    exact .inr (.relied _ _ _ _ hid rfl)
  | _ => cases c <;> exact hnew.elim

/-- The people of a stage were those of the one before, or have just been found active. -/
theorem Moves.people (h : Moves view stage next changes) (hid : id ∈ next.people) :
    id ∈ stage.people ∨ view.Active id := by
  cases h with
  | changeSubjectLocked _ _ active => exact .inr (List.mem_singleton.mp hid ▸ active)
  | proposerLocked _ _ active => exact .inr (List.mem_singleton.mp hid ▸ active)
  | proposalChecked proposal _ _ active =>
    rcases List.mem_cons.mp hid with rfl | hid
    · exact .inl List.mem_cons_self
    · obtain ⟨haction, hid⟩ := (List.mem_ite_nil_right ..).mp hid
      exact .inr (List.mem_singleton.mp hid ▸ active haction)
  | addressLocked _ _ _ => exact .inl hid
  | invitationsExpired _ _ _ => exact .inl hid
  | changesExpired _ _ _ => exact .inl hid
  | addressFree _ _ _ _ => exact .inl hid
  | changeSeparated _ _ => exact .inl hid
  | changeAddressWanted _ _ => exact .inl hid
  | proposalSeparated _ _ => exact .inl hid
  | _ => exact absurd hid List.not_mem_nil

theorem AddressRequest.people_locked {request : AddressRequest} {held : Locks}
    (hlocks : request.locks ⊆ held) (hid : id ∈ request.people) : lockOf .subjects id ∈ held := by
  cases request with
  | invite _ => exact absurd hid List.not_mem_nil
  | change request =>
    obtain rfl := List.mem_singleton.mp hid
    exact hlocks List.mem_cons_self

theorem Proposal.people_locked {proposal : Proposal} (hid : id ∈ proposal.people) :
    ∃ mode, (.row (.subjects, id), mode) ∈ proposal.locks := by
  rcases List.mem_cons.mp hid with rfl | hid
  · exact ⟨.share, List.mem_cons_of_mem _ List.mem_cons_self⟩
  · obtain ⟨-, hid⟩ := (List.mem_ite_nil_right ..).mp hid
    obtain rfl := List.mem_singleton.mp hid
    exact ⟨.exclusive, List.mem_cons_self⟩

/-- They stay as they are: the transaction holds a lock on each. -/
theorem Stage.people_locked (hchecked : stage.Checked) (hid : id ∈ stage.people) :
    ∃ mode, (.row (.subjects, id), mode) ∈ stage.held := by
  cases stage with
  | changeSubjectLocked _ _ =>
    exact ⟨.exclusive, List.mem_singleton.mp hid ▸ List.mem_cons_self⟩
  | changeSeparated _ _ => exact ⟨.exclusive, List.mem_singleton.mp hid ▸ List.mem_cons_self⟩
  | addressWanted _ _ _ => exact ⟨_, AddressRequest.people_locked hchecked.locks hid⟩
  | addressLocked _ _ _ => exact ⟨_, AddressRequest.people_locked hchecked.1.locks hid⟩
  | invitationsExpired _ _ _ => exact ⟨_, AddressRequest.people_locked hchecked.1.locks hid⟩
  | changesExpired _ _ _ => exact ⟨_, AddressRequest.people_locked hchecked.1.locks hid⟩
  | addressFree _ _ _ => exact ⟨_, AddressRequest.people_locked hchecked.1.locks hid⟩
  | proposerLocked _ _ => exact ⟨.share, List.mem_singleton.mp hid ▸ List.mem_cons_self⟩
  | proposalChecked _ _ => exact Proposal.people_locked hid
  | proposalSeparated _ _ => exact Proposal.people_locked hid
  | _ => exact absurd hid List.not_mem_nil

theorem Force.update_mem (force : Force) (subject : Subject) :
    force.update subject.id ∈ suspensionUpdates subject := by
  unfold suspensionUpdates
  refine List.mem_append_left _ (List.mem_append_left _ ?_)
  cases force with
  | change part => cases part <;> simp [update]
  | _ => simp [update]

end Effects

section Runs

variable {db : Db} {p : Point Row Stage} {next : Stage} {changes : List (Change Row)}
  {writes : List (Write Row)} {k : Key} {c d : Fact} {id : Uuid} {force : Force} {since : Nat}
  {r s : Row}

theorem Ran.gained (h : Ran db p next changes writes) (hfresh : suspensions.Fresh writes k c) :
    Gained (db.write p.writes) p.stage next c := by
  obtain ⟨write, hwrite, -, hnew, hold⟩ := hfresh
  exact ((h.effects write hwrite).gained h.reads.checked hnew).resolve_left hold

theorem States.eq_subject (h : s.States (.suspended id since)) :
    ∃ person, s = .subject person ∧ person.id = id ∧ person.suspendedAt = some since := by
  cases s with
  | subject person => exact ⟨person, rfl, h⟩
  | _ => exact h.elim

theorem Db.Active.not_suspended {view : Db} (h : view.Active id) (hs : s ∈ view.rows) :
    ¬ s.States (.suspended id since) := by
  intro hstates
  obtain ⟨person, rfl, rfl, hsuspended⟩ := States.eq_subject hstates
  obtain ⟨row, hrow, hactive⟩ := h
  have hfound := (Db.subject?_eq_some hrow).symm.trans (lookup_of_mem hs)
  cases hfound
  rw [hactive] at hsuspended
  cases hsuspended

/-- Whoever has been found active, now or under a lock that is kept, is not suspended by a
statement that suspends no one. -/
theorem Ran.not_suspended (h : Ran db p next changes writes) (kept : suspensions.Kept db.rows p)
    (hactive : id ∈ p.stage.people ∨ Db.Active (db.write p.writes) id)
    (hnone : ∀ since, ¬ Gained (db.write p.writes) p.stage next (.suspended id since))
    (hs : s ∈ putAll (putAll db.rows p.writes) writes) (hstates : s.States (.suspended id since)) :
    ¬ force.LastsBeyond since := by
  rcases suspensions.states_putAll (c := .suspended id since) h.fits hs hstates with ⟨r, hr, hkey, hrstates⟩ | hfresh
  · rcases hactive with hpeople | hactive
    · have hclear := (kept.ready (.invitations, 0) (.inForce id force)
        ⟨nofun, id, hpeople, force, rfl⟩).2
      obtain ⟨person, rfl, -, -⟩ := States.eq_subject hrstates
      exact (hclear _ hr nofun _ hrstates).2 rfl
    · exact absurd hrstates (hactive.not_suspended hr)
  · exact absurd (h.gained hfresh) (hnone since)

theorem locked_of_mem {q : Point Row Stage} {mode : LockMode}
    (h : (.row (.subjects, id), mode) ∈ q.stage.held) : suspensions.Locked q (.inForce id force) :=
  ⟨mode, List.mem_append_left _ h, nofun⟩

theorem Gained.locked {view : Db} {stage : Stage} {w : List (Write Row)}
    (h : Gained view stage next c) (hchecked : stage.Checked) (holds : stage.held ⊆ next.held) :
    suspensions.Locked ⟨next, w⟩ c := by
  cases h with
  | suspended decision row held held' now subject subjectId =>
    have hlocked : lockOf .subjects subject.id ∈ held' := subjectId ▸ holds hchecked.2
    exact ⟨.exclusive, List.mem_append_left _ hlocked, fun _ => rfl⟩
  | decided _ _ _ _ _ _ _ => exact locked_of_mem List.mem_cons_self
  | asked _ _ _ _ _ => exact locked_of_mem List.mem_cons_self
  | relied _ _ _ _ relies _ =>
    obtain ⟨mode, hmode⟩ := Stage.people_locked hchecked relies
    exact locked_of_mem (holds hmode)

theorem Gained.eq_suspension {view : Db} {stage : Stage}
    (h : Gained view stage next (.suspended id since)) :
    ∃ decision row held held' subject, stage = .decisionSeparated decision (.suspension row) held since ∧
      next = .ending held' since .decided (suspensionUpdates subject) ∧ subject.id = id ∧
        row.subjectId = id := by
  generalize hc : Fact.suspended id since = c at h
  cases h with
  | suspended decision row held held' now subject subjectId =>
    cases hc
    exact ⟨_, _, _, _, _, rfl, rfl, rfl, subjectId.symm⟩
  | _ => cases hc

/-- No one suspends the person that they act as. -/
theorem Gained.not_suspending {view : Db} {stage : Stage} (h : Gained view stage next (.inForce id force))
    (hchecked : stage.Checked) (since : Nat) : ¬ Gained view stage next (.suspended id since) := by
  intro hsuspended
  obtain ⟨decision, row, held, -, -, rfl, -, -, hsubject⟩ := hsuspended.eq_suspension
  cases h with
  | decided _ _ _ _ _ _ _ => exact hchecked.1.target hsubject
  | relied _ _ _ _ relies _ => exact absurd relies List.not_mem_nil

theorem Gained.active {view : Db} {stage : Stage} (h : Gained view stage next (.inForce id force)) :
    id ∈ stage.people ∨ view.Active id := by
  cases h with
  | decided _ _ _ _ _ _ active => exact .inr active
  | asked _ _ _ _ active => exact .inr active
  | relied _ _ _ _ relies _ => exact .inl relies

/-- What a closing UPDATE is for does not last once it has run. -/
theorem Ran.closed (h : Ran db p next changes writes) {held : Locks} {now : Nat} {status : Status}
    {rest : List Update} (hstage : p.stage = .ending held now status (force.update id :: rest))
    (hs : s ∈ putAll (putAll db.rows p.writes) writes) (hforce : s.InForce force id) :
    ¬ force.LastsBeyond now := by
  intro hlasts
  rcases suspensions.states_putAll (c := .inForce id force) h.fits hs hforce
    with ⟨r, hr, hkey, hforce'⟩ | hfresh
  · have hstood : r.InForce force id := hforce'
    obtain ⟨new, hnew, hended⟩ : ∃ new,
        (force.update id).row now (db.write p.writes) r = some new ∧ ¬ new.InForce force id :=
      hstood.closed hlasts
    have hsame := h.ended hstage hr hs hkey hnew
    exact hended (hsame ▸ hforce)
  · have hgained := h.gained hfresh
    rw [hstage] at hgained
    cases hgained with
    | relied _ _ _ _ relies _ => exact absurd relies List.not_mem_nil

/-- A statement keeps what is in force apart from the suspended. -/
theorem Ran.suspensions_kept (h : Ran db p next changes writes) (kept : suspensions.Kept db.rows p) :
    suspensions.Kept db.rows ⟨next, p.writes ++ writes⟩ := by
  refine kept.statement h.fits (fun _ _ _ _ => trivial) h.locks_subset ?_ ?_ ?_ ?_
  case refine_1 =>
    intro k c hfresh
    exact (h.gained hfresh).locked h.reads.checked h.moves.held_subset
  case refine_2 =>
    intro k c hfresh s hs hother d hd
    have hgained := h.gained hfresh
    cases c with
    | inForce id force =>
      refine ⟨.inl trivial, .inl ?_⟩
      cases d with
      | inForce _ _ => trivial
      | suspended id' since =>
        rintro rfl
        exact h.not_suspended kept hgained.active (hgained.not_suspending h.reads.checked) hs hd
    | suspended id since =>
      refine ⟨?_, .inl ?_⟩
      · cases d with
        | suspended _ _ => exact .inl trivial
        | inForce id' force =>
          obtain ⟨-, -, -, -, subject, -, rfl, rfl, -⟩ := hgained.eq_suspension
          by_cases hsame : subject.id = id'
          · exact .inr ⟨hsame.symm, rfl, force.update_mem subject⟩
          · exact .inl fun heq => absurd heq hsame
      · cases d <;> trivial
  case refine_3 =>
    intro r hr s hs hother c d hc hd hcloses
    obtain ⟨held, now, status, updates, id, force, hstage, rfl, rfl, hmem⟩ := hcloses.cases
    cases updates with
    | nil => exact absurd hmem List.not_mem_nil
    | cons update rest =>
      obtain ⟨rfl, -⟩ := h.ends _ _ _ _ _ hstage
      rcases List.mem_cons.mp hmem with rfl | hmem
      · exact .inl fun _ => h.closed hstage hs hd
      · exact .inr ⟨rfl, rfl, hmem⟩
  case refine_4 =>
    rintro k c ⟨hk, id, hid, force, rfl⟩
    obtain ⟨mode, hmode⟩ := Stage.people_locked h.reads_next.checked hid
    refine ⟨locked_of_mem hmode, fun r hr _ d hd => ⟨trivial, ?_⟩⟩
    cases d with
    | inForce _ _ => trivial
    | suspended id' since =>
      rintro rfl
      refine h.not_suspended kept (h.moves.people hid) (fun since hgained => ?_) hr hd
      obtain ⟨_, _, _, _, _, _, hending, _, _⟩ := hgained.eq_suspension
      rw [hending] at hid
      exact absurd hid List.not_mem_nil

variable {W : Type}

theorem suspensions_maintain :
    program.protocol.Maintains (fun (s : State W Db (Point Row Stage)) (_ : Action W Given) =>
        True ∧ program.protocol.Sound WellFormed Standing s)
      (fun db => suspensions.Consistent db.rows) (fun db p => suspensions.Kept db.rows p) := by
  refine suspensions.maintains ?_ (fun s a allowed w => (allowed.2.relies w).1.1.fits) ?_
  · rintro k c ⟨-, id, hid, -⟩
    exact absurd hid List.not_mem_nil
  · intro s w input next changes writes kept allowed hran hrecord
    exact ((allowed.2.relies w).1.2.ran hran hrecord).suspensions_kept kept

theorem Founded.suspensions {db : Db} (h : Founded db) : suspensions.Consistent db.rows := by
  intro r hr s hs _ c d _ hd
  obtain ⟨person, rfl⟩ := h.people s hs
  cases c with
  | inForce _ _ => trivial
  | suspended _ _ =>
    cases d with
    | suspended _ _ => trivial
    | inForce _ _ => exact hd.elim

/-- Person 1 approves a reset for person 3 and is suspended two days later. -/
def afterWindow : List (ReadCommitted.Action Bool Given) :=
  script true (.propose ⟨none, 10, 20, 3, 2⟩) 5 ++
    script true (.decide ⟨.mfaReset, 10, 20, 1, true, 1, 0, 0⟩) 12 ++
    [.outside ⟨.propose ⟨none, 10, 20, 3, 2⟩, days 2⟩] ++
    script true (.propose ⟨some .suspend, 10, 21, 1, 2⟩) 5 ++
    script true (.decide ⟨.suspension, 10, 21, 4, true, 1, 0, 0⟩) 27

end Runs

end MpcRegistry.Accounts
