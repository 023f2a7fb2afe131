import MpcRegistry.Accounts.Effects
import MpcRegistry.Library.References

/-!
# What the rows of accounts refer to

A session belongs to a person of its tenant and to a code that this person has used, a request is
about a person of its tenant, and a code for a change of address was sent to that address.
-/
namespace MpcRegistry.Accounts
open Library WriteSet ReadCommitted Utf16

inductive Reference where
  | member (subjectId tenantId : Uuid)
  | change (id : Uuid) (email : Text)
  | usedCode (challengeId subjectId : Uuid)
  deriving DecidableEq, Repr

def Row.Meets : Row → Reference → Prop
  | .subject row, .member subjectId tenantId => row.id = subjectId ∧ row.tenantId = tenantId
  | .emailChange row, .change id email => row.id = id ∧ row.newEmail = email
  | .emailChallenge row, .usedCode challengeId subjectId =>
    row.id = challengeId ∧ row.consumedAt ≠ none ∧ row.subjectId = some subjectId
  | _, _ => False

/-- The person that a code for an account was issued for. -/
def EmailChallenge.holder (row : EmailChallenge) : List Reference :=
  match row.subjectId, row.tenantId with
  | some subjectId, some tenantId =>
    if row.purpose = .invitation then [] else [.member subjectId tenantId]
  | _, _ => []

def EmailChallenge.references (row : EmailChallenge) : List Reference :=
  row.holder ++ (row.emailChangeId.map fun id => .change id row.email).toList

def Row.references : Row → List Reference
  | .session row => .member row.subjectId row.tenantId ::
    (row.emailChallengeId.map fun id => .usedCode id row.subjectId).toList
  | .emailChallenge row => row.references
  | .emailChange row => [.member row.subjectId row.tenantId]
  | .mfaReset row => [.member row.subjectId row.tenantId]
  | .suspension row => [.member row.subjectId row.tenantId]
  | _ => []

def RequestEmailChange.references (request : RequestEmailChange) : List Reference :=
  [.member request.subjectId request.tenantId]

def AddressRequest.references : AddressRequest → List Reference
  | invite _ => []
  | change request => request.references

def Proposal.references (proposal : Proposal) : List Reference :=
  [.member proposal.subjectId proposal.tenantId]

def Update.refersTo : Update → List Reference
  | issue challenge => challenge.references
  | _ => []

/-- What a stage has found, and goes on with. -/
def Stage.references : Stage → List Reference
  | .holderRead _ challengeId subjectId tenantId _ =>
    [.member subjectId tenantId, .usedCode challengeId subjectId]
  | .sessionAdmitted _ challengeId subjectId tenantId _ =>
    [.member subjectId tenantId, .usedCode challengeId subjectId]
  | .changeWanted request _ => request.references
  | .staleExpired request _ => request.references
  | .changeSubjectLocked request _ => request.references
  | .changeSeparated request _ => request.references
  | .addressWanted request _ _ => request.references
  | .addressLocked request _ _ => request.references
  | .invitationsExpired request _ _ => request.references
  | .changesExpired request _ _ => request.references
  | .addressFree request _ _ => request.references
  | .changeLocked request change _ _ => [.change change.id request.newEmail]
  | .changeHolderLocked request change _ _ => [.change change.id request.newEmail]
  | .completionAddressLocked request change _ _ => [.change change.id request.newEmail]
  | .completionFree request change _ _ => [.change change.id request.newEmail]
  | .proposalChecked proposal _ => proposal.references
  | .proposalSeparated proposal _ => proposal.references
  | .ending _ _ _ updates => updates.flatMap Update.refersTo
  | _ => []

/-- References to what does not change. -/
def references : References program Reference where
  needs row d := d ∈ row.references
  wants stage d := d ∈ stage.references
  meets := Row.Meets
  leads r s := ∀ d, r.Meets d → s.Meets d
  leads_refl _ _ h := h
  leads_trans _ _ _ hab hbc d h := hbc d (hab d h)
  meets_leads h hleads := hleads _ h
  wants_idle _ h := by cases h

section Effects

variable {view : Db} {stage next : Stage} {changes : List (Change Row)} {old new : Row}
  {d : Reference}

theorem EmailChallenge.unused_of_live {row : EmailChallenge} (h : row.live = true) :
    row.consumedAt = none :=
  Option.isNone_iff_eq_none.mp (Bool.and_eq_true_iff.mp h).1

/-- A code that nobody has used is no one's used code. -/
theorem not_meets_of_live {row : EmailChallenge} (h : row.live = true) :
    ¬ (Row.emailChallenge row).Meets d := by
  have hunused := EmailChallenge.unused_of_live h
  cases d <;> simp [Row.Meets, hunused]

theorem Ends.meets {now : Nat} (h : Ends now old new) (hd : old.Meets d) : new.Meets d := by
  cases h with
  | challenge row live => exact absurd hd (not_meets_of_live live)
  | change row _ _ => cases d <;> exact hd
  | _ => cases d <;> exact hd

theorem RequestRow.decide_meets {request : RequestRow} {decision : Decision} {now : Nat}
    (hd : request.row.Meets d) : (request.decide decision now).Meets d := by
  cases request <;> cases d <;> exact hd

/-- What a row was referred to for, it keeps. -/
theorem Effect.meets (h : Effect view changes stage next (some old) new) (hchecked : stage.Checked)
    (hd : old.Meets d) : new.Meets d := by
  cases h with
  | ended _ _ _ _ _ ends => exact ends.meets hd
  | attempted _ _ _ live _ => exact absurd hd (not_meets_of_live live)
  | consumed _ _ _ _ live _ _ => exact absurd hd (not_meets_of_live live)
  | codeBound _ _ challenge _ _ =>
    cases d with
    | usedCode id subjectId =>
      have hbound : challenge.subjectId = some subjectId := hd.2.2
      rw [hchecked.unbound] at hbound
      cases hbound
    | _ => exact hd
  | rejected _ _ _ _ _ _ => exact RequestRow.decide_meets hd
  | approved _ _ _ _ _ _ _ _ _ => exact RequestRow.decide_meets hd
  | invitationRevoked _ _ _ _ => cases d <;> exact hd
  | invitationAccepted _ _ _ _ _ => cases d <;> exact hd
  | suspended _ _ _ _ _ _ _ => cases d <;> exact hd
  | reinstated _ _ _ _ _ _ _ => cases d <;> exact hd
  | moved _ _ _ _ _ _ _ => cases d <;> exact hd
  | completed _ _ _ _ _ _ => cases d <;> exact hd

theorem Ends.references_eq {now : Nat} (h : Ends now old new) : new.references = old.references := by
  cases h <;> rfl

theorem RequestRow.decide_references (request : RequestRow) (decision : Decision) (now : Nat) :
    (request.decide decision now).references = request.row.references := by
  cases request <;> rfl

/-- A row that is written over needs nothing else. -/
theorem Effect.references_eq (h : Effect view changes stage next (some old) new) (hchecked : stage.Checked) :
    new.references = old.references := by
  cases h with
  | ended _ _ _ _ _ ends => exact ends.references_eq
  | codeBound _ _ challenge _ _ =>
    have hpurpose : challenge.purpose = .invitation := hchecked.purpose
    simp only [Row.references, EmailChallenge.references, EmailChallenge.holder,
      EmailChallenge.consumed, EmailChallenge.attempted, hpurpose, hchecked.unbound]
    cases challenge.tenantId <;> simp
  | rejected _ _ _ _ _ _ => exact RequestRow.decide_references _ _ _
  | approved _ _ _ _ _ _ _ _ _ => exact RequestRow.decide_references _ _ _
  | _ => rfl

end Effects

/-! ## Along a run -/

section Runs

variable {db : Db} {p : Point Row Stage} {stage next : Stage} {writes : List (Write Row)}
  {changes : List (Change Row)} {d : Reference}

theorem Db.Member.met {view : Db} {subjectId tenantId : Uuid} (h : view.Member subjectId tenantId) :
    references.Met view.rows (.member subjectId tenantId) := by
  obtain ⟨row, found, htenant⟩ := h
  exact ⟨.subject row, Db.mem_of_lookup (Db.subject?_eq_some found), Db.subject?_id found, htenant⟩

/-- What a started challenge refers to has been found. -/
theorem Started.met {view : Db} {request : StartChallenge} {now : Nat} {held : Locks}
    {updates : List Update} (h : Started view now request held updates)
    (complete : references.Complete view.rows) (hd : d ∈ updates.flatMap Update.refersTo) :
    references.Met view.rows d := by
  cases h with
  | invitation row _ =>
    simp [Update.refersTo, EmailChallenge.references, EmailChallenge.holder, newChallenge] at hd
  | signIn person found =>
    cases person with
    | none =>
      simp [Update.refersTo, EmailChallenge.references, EmailChallenge.holder, newChallenge] at hd
    | some person =>
      simp only [Update.refersTo, EmailChallenge.references, EmailChallenge.holder, newChallenge,
        List.flatMap_cons, List.flatMap_nil, Option.map_some, Option.map_none, Option.toList_none,
        List.append_nil, List.nil_append, reduceCtorEq, if_false, List.mem_singleton] at hd
      have hrow := (Db.mem_all_iff Row.subject?_eq_some).mp (List.mem_of_find?_eq_some found)
      exact ⟨_, hrow, hd ▸ ⟨rfl, rfl⟩⟩
  | emailChange change found =>
    cases change with
    | none =>
      simp [Update.refersTo, EmailChallenge.references, EmailChallenge.holder, newChallenge] at hd
    | some change =>
      obtain ⟨hrow, hemail⟩ := Db.approvedChange_eq_some found
      simp only [Update.refersTo, EmailChallenge.references, EmailChallenge.holder, newChallenge,
        List.flatMap_cons, List.flatMap_nil, Option.map_some, Option.toList_some,
        List.append_nil, List.nil_append, reduceCtorEq, if_false, List.cons_append,
        List.mem_cons, List.not_mem_nil, or_false] at hd
      rcases hd with rfl | rfl
      · exact complete _ hrow _ List.mem_cons_self
      · exact ⟨_, hrow, rfl, hemail⟩

/-- What an approval leaves to be issued refers to the decided request. -/
theorem Approved.met {view : Db} {decision : Decision} {request : RequestRow} {now : Nat}
    {updates : List Update} (h : Approved view now decision request updates changes)
    (complete : references.Complete view.rows) (hrequest : request.row ∈ view.rows)
    (hd : d ∈ updates.flatMap Update.refersTo) : references.Met view.rows d := by
  cases h with
  | emailChange row =>
    simp only [Update.refersTo, EmailChallenge.references, EmailChallenge.holder, newChallenge,
      List.flatMap_cons, List.flatMap_nil, Option.map_some, Option.toList_some,
      List.append_nil, List.nil_append, reduceCtorEq, if_false, List.cons_append,
      List.mem_cons, List.not_mem_nil, or_false] at hd
    rcases hd with rfl | rfl
    · exact complete _ hrequest _ List.mem_cons_self
    · exact ⟨_, hrequest, rfl, rfl⟩
  | mfaReset row => simp [resetUpdates, Update.refersTo] at hd
  | suspend row subject _ _ =>
    cases hemail : subject.email <;> simp [suspensionUpdates, Update.refersTo, hemail] at hd
  | reinstate row subject _ _ => cases hd

/-- What the next stage goes on with is there. -/
theorem Moves.met {view : Db} (h : Moves view stage next changes)
    (complete : references.Complete view.rows)
    (hcaptured : ∀ r ∈ stage.captured, r ∈ view.rows) (hchecked : stage.Checked)
    (wanted : ∀ d ∈ stage.references, references.Met view.rows d) (hd : d ∈ next.references) :
    references.Met view.rows d := by
  cases h with
  | started _ _ _ _ started => exact started.met complete hd
  | holderRead request challenge now subject found holder _ _ =>
    rcases List.mem_cons.mp hd with rfl | hd
    · exact Db.Member.met ⟨subject, found, rfl⟩
    · obtain rfl := List.mem_singleton.mp hd
      exact ⟨_, hcaptured _ List.mem_cons_self, rfl, nofun, holder⟩
  | sessionAdmitted _ _ _ _ _ _ => exact wanted d hd
  | changeWanted _ _ member _ => exact List.mem_singleton.mp hd ▸ member.met
  | staleExpired _ _ => exact wanted d hd
  | changeSubjectLocked _ _ _ => exact wanted d hd
  | changeSeparated _ _ => exact wanted d hd
  | changeAddressWanted _ _ => exact wanted d hd
  | addressLocked _ _ _ => exact wanted d hd
  | invitationsExpired _ _ _ => exact wanted d hd
  | changesExpired _ _ _ => exact wanted d hd
  | addressFree _ _ _ _ => exact wanted d hd
  | changeLocked request challenge held now row ofCode found _ =>
    have hrow := hcaptured (.emailChallenge (challenge.consumed now)) List.mem_cons_self
    have hneeds : Reference.change row.id challenge.email ∈
        (Row.emailChallenge (challenge.consumed now)).references := by
      simp [Row.references, EmailChallenge.references, EmailChallenge.consumed,
        EmailChallenge.attempted, ofCode]
    have hmet := complete _ hrow _ hneeds
    rw [hchecked.2.2] at hmet
    exact List.mem_singleton.mp hd ▸ hmet
  | changeHolderLocked _ _ _ _ _ => exact wanted d hd
  | completionAddressLocked _ _ _ _ => exact wanted d hd
  | completionFree _ _ _ _ _ => exact wanted d hd
  | proposalChecked _ _ member _ => exact List.mem_singleton.mp hd ▸ member.met
  | proposalSeparated _ _ => exact wanted d hd
  | approved _ _ _ _ _ _ _ _ approved =>
    exact approved.met complete (hcaptured _ List.mem_cons_self) hd
  | changeCompleted _ change _ _ subject _ =>
    cases hemail : subject.email <;>
      simp [Stage.references, completionUpdates, Update.refersTo, hemail] at hd
  | ended _ _ _ _ _ => exact wanted d (List.mem_append_right _ hd)
  | refused _ _ _ _ _ _ => cases hd
  | compared _ _ _ _ _ _ _ _ _ _ => cases hd
  | sessionOpened _ _ _ _ _ => cases hd
  | addressTaken _ _ _ _ => cases hd
  | invitationRevoked _ _ _ => simp [Stage.references, Update.refersTo] at hd
  | acceptanceTaken _ _ _ _ => cases hd
  | invitationAccepted _ _ _ _ => cases hd
  | rejected _ _ _ _ _ _ => cases hd
  | completionTaken _ _ _ _ => cases hd
  | proposed _ _ _ => cases hd
  | _ => cases hd

/-- What a statement's rows need is there when it has run. -/
theorem Ran.needed (h : Ran db p next changes writes) (hkept : references.Kept db.rows p)
    (grows : Grows references.leads (putAll db.rows p.writes)
      (putAll (putAll db.rows p.writes) writes)) :
    ∀ write ∈ writes, ∀ d ∈ write.new.references,
      references.Met (putAll (putAll db.rows p.writes) writes) d := by
  intro write hwrite d hd
  have heffect := h.effects write hwrite
  have wanted : ∀ d ∈ p.stage.references, references.Met (putAll db.rows p.writes) d := hkept.wanted
  cases hold : write.old with
  | some old =>
    rw [hold] at heffect
    rw [heffect.references_eq h.reads.checked] at hd
    exact (hkept.complete old (h.old_mem hwrite hold) d hd).grows grows
  | none =>
    rw [hold] at heffect
    generalize hstage : p.stage = stage at heffect wanted
    generalize write.new = new at heffect hd
    cases heffect with
    | issued challenge _ _ _ _ => exact (wanted d (List.mem_append_left _ hd)).grows grows
    | sessionOpened _ _ _ _ _ => exact (wanted d hd).grows grows
    | addressTaken request _ _ _ =>
      cases request with
      | invite _ => cases hd
      | change _ => exact (wanted d hd).grows grows
    | personInvited _ _ _ _ _ => cases hd
    | sessionAccepted request invitation challenge now together =>
      have hnew : ∀ change ∈ acceptInvitation now request invitation challenge,
          change.row ∈ putAll (putAll db.rows p.writes) writes := together ▸ h.new_mem
      rcases List.mem_cons.mp hd with rfl | hd
      · exact ⟨_, hnew _ List.mem_cons_self, rfl, rfl⟩
      · obtain rfl := List.mem_singleton.mp hd
        have hbound := hnew (.update (.emailChallenge
          { challenge.consumed now with subjectId := some request.subjectId }))
          (by simp [acceptInvitation])
        exact ⟨_, hbound, rfl, Option.some_ne_none now, rfl⟩
    | proposed proposal _ _ =>
      have hreferences : d ∈ proposal.references := by
        unfold Proposal.row at hd
        split at hd <;> exact hd
      exact (wanted d hreferences).grows grows

theorem Ran.follows (h : Ran db p next changes writes) : Follow references.leads writes := by
  intro write hwrite old hold d hd
  have heffect := h.effects write hwrite
  rw [show write.old = some old from hold] at heffect
  exact heffect.meets h.reads.checked hd

variable {W : Type}

/-- Every reference leads to a row, and goes on doing so. -/
theorem references_maintain :
    program.protocol.Maintains (fun (s : State W Db (Point Row Stage)) (_ : Action W Given) => True ∧
        program.protocol.Sound (fun db => Distinct Row.uniques db.rows ∧ ∀ r ∈ db.rows, r.Ok)
          (fun db p => program.Fitting db p ∧ Reads db.rows p) s)
      (fun db => references.Complete db.rows) (fun db p => references.Kept db.rows p) := by
  refine references.maintains (fun s a allowed w => (allowed.2.relies w).1.fits) ?_
  intro s w input next changes writes hkept allowed hran hrecord
  have ran := (allowed.2.relies w).2.ran hran hrecord
  have grows := grows_putAll references.leads_refl references.leads_trans ran.fits ran.follows
  refine hkept.statement ran.fits ran.follows (ran.needed hkept grows) fun d hd => ?_
  exact (ran.moves.met hkept.complete (fun r hr => (ran.reads.captured r hr).1) ran.reads.checked
    hkept.wanted hd).grows grows

/-- Unique entries are distinct, rows well-formed and references complete. -/
abbrev WellFormed (db : Db) : Prop :=
  (Distinct Row.uniques db.rows ∧ ∀ r ∈ db.rows, r.Ok) ∧ references.Complete db.rows

/-- What a transaction has written and read is as it left it. -/
abbrev Standing (db : Db) (p : Point Row Stage) : Prop :=
  (program.Fitting db p ∧ Reads db.rows p) ∧ references.Kept db.rows p

theorem standing_maintains :
    program.protocol.Maintains (fun (_ : State W Db (Point Row Stage)) (_ : Action W Given) => True)
      WellFormed Standing :=
  base_maintains.and references_maintain

/-- At the start there are people only, no two with one address. -/
structure Founded (db : Db) : Prop where
  people : ∀ r ∈ db.rows, ∃ person, r = .subject person
  distinct : Distinct Row.uniques db.rows

theorem Founded.wellFormed {db : Db} (h : Founded db) : WellFormed db := by
  refine ⟨⟨h.distinct, fun r hr => ?_⟩, fun r hr d hd => ?_⟩
  · obtain ⟨person, rfl⟩ := h.people r hr
    trivial
  · obtain ⟨person, rfl⟩ := h.people r hr
    cases hd

/-- A person of tenant 10. -/
def person (id : Uuid) (email : Text) : Subject where
  id := id
  tenantId := 10
  kind := .person
  email := some email
  suspendedAt := none
  createdAt := 0
  version := 1

/-- Four people. -/
def people : Db where
  rows := ⟨[.subject (person 1 (units "a@x")), .subject (person 2 (units "b@x")),
    .subject (person 3 (units "c@x")), .subject (person 4 (units "d@x"))], by decide⟩
  now := 0

theorem people_founded : Founded people where
  people r hr := by
    rcases hr with _ | ⟨_, _ | ⟨_, _ | ⟨_, _ | ⟨_, h⟩⟩⟩⟩
    case tail.tail.tail.tail => cases h
    all_goals exact ⟨_, rfl⟩
  distinct := by
    have haddresses : ∀ r ∈ people.rows.rows, ∀ s ∈ people.rows.rows, r.key ≠ s.key →
        ∀ entry ∈ r.uniques, entry ∉ s.uniques := by decide
    exact fun r hr s hs hother entry hentry hshared =>
      haddresses r hr s hs hother entry hentry hshared

/-- The statements of one request by one worker, who commits. -/
def script {V : Type} (w : V) (request : Request) (steps : Nat) : List (Action V Given) :=
  List.replicate steps (.statement w ⟨request, 0⟩) ++ [.commit w]

end Runs

end MpcRegistry.Accounts
