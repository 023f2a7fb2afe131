import MpcRegistry.Accounts.References

/-!
# One address, one holder

An address belongs to a person, to a pending invitation or to an open change of address, each
in a table of its own. A unique index keeps each table to one; what keeps the tables apart is the
advisory lock on the address, under which a function looks for it in all three before it takes it.
-/
namespace MpcRegistry.Accounts
open Library WriteSet ReadCommitted Utf16

/-- The row has the address. -/
def Row.Holds : Row → Text → Prop
  | .subject row, email => row.email = some email
  | .invitation row, email => row.state = .pending ∧ row.email = email
  | .emailChange row, email => row.isOpen = true ∧ row.newEmail = email
  | _, _ => False

/-- The address that a stage has found free, and the row it is for. -/
def Stage.Wants : Stage → Key → Text → Prop
  | .addressFree request _ now, k, email => k = (request.row now).key ∧ email = request.email
  | _, _, _ => False

/-- Holders of an address, which agree when it is another's. -/
def holders : Facts program Text where
  states := Row.Holds
  agree _ c d := c ≠ d
  guard email := (.unique (.emailLock email), .exclusive)
  intends p := p.stage.Wants
  excuses _ _ _ := False
  leads _ _ := True
  leads_refl _ := trivial
  leads_trans _ _ _ _ _ := trivial
  agree_grows _ h := h
  guarded h := ⟨by rw [not_not.mp h], .inl rfl⟩
  excuses_done _ h := h

section Effects

variable {view : Db} {stage next : Stage} {changes : List (Change Row)} {old new : Row} {email : Text}

/-- No row is left with the address, outside the key. -/
theorem clear_of_free (h : view.emailInUse email = false) (k : Key) :
    holders.Clear view.rows k email := by
  simp only [Db.emailInUse, Db.emailOfSubject, Bool.or_eq_false_iff, List.any_eq_false,
    Bool.and_eq_true, decide_eq_true_eq] at h
  obtain ⟨⟨hsubject, hinvitation⟩, hchange⟩ := h
  intro r hr _ d hd
  have hne : email ≠ d := by
    rintro rfl
    cases r with
    | subject row => exact hsubject row ((Db.mem_all_iff Row.subject?_eq_some).mpr hr) hd
    | invitation row =>
      exact hinvitation row ((Db.mem_all_iff Row.invitation?_eq_some).mpr hr) ⟨hd.2, hd.1⟩
    | emailChange row =>
      exact hchange row ((Db.mem_all_iff Row.emailChange?_eq_some).mpr hr) ⟨hd.2, hd.1⟩
    | _ => exact hd
  exact ⟨hne, hne.symm⟩

theorem Ends.holds {now : Nat} (h : Ends now old new) (hnew : new.Holds email) : old.Holds email := by
  cases h with
  | change row _ _ => simp [Row.Holds, EmailChangeRequest.close, EmailChangeRequest.isOpen] at hnew
  | invitation row _ _ => simp [Row.Holds, Invitation.close] at hnew
  | _ => exact hnew

/-- How a row comes to have an address. -/
inductive Taken (changes : List (Change Row)) : Stage → Key → Text → Prop where
  | wanted (request : AddressRequest) (held : Locks) (now : Nat) :
    Taken changes (.addressFree request held now) (request.row now).key request.email
  | accepted (request : AcceptInvitation) (invitation : Invitation) (challenge : EmailChallenge)
      (now : Nat) (together : changes = acceptInvitation now request invitation challenge) :
    Taken changes (.acceptanceFree request invitation challenge now)
      (.subjects, request.subjectId) invitation.email
  | moved (request : CompleteEmailChange) (change : EmailChangeRequest) (held : Locks) (now : Nat)
      (subject : Subject) (id : subject.id = change.subjectId)
      (together : changes = [.update (.subject (subject.move request.newEmail)),
        .update (.emailChange (change.complete subject.email now))]) :
    Taken changes (.completionFree request change held now) (.subjects, change.subjectId)
      request.newEmail

theorem Effect.taken {old : Option Row} (h : Effect view changes stage next old new)
    (hchecked : stage.Checked) (hnew : new.Holds email) :
    (∃ r ∈ old, r.Holds email) ∨ Taken changes stage new.key email := by
  cases h with
  | ended _ _ _ old _ ends => exact .inl ⟨old, rfl, ends.holds hnew⟩
  | addressTaken request _ _ _ =>
    refine .inr ?_
    have hemail : email = request.email := by
      cases request with
      | invite _ => exact hnew.2.symm
      | change _ => exact hnew.2.symm
    exact hemail ▸ .wanted request _ _
  | invitationRevoked _ _ _ _ => simp [Row.Holds, Invitation.revoke] at hnew
  | personInvited request invitation challenge now together =>
    obtain rfl := Option.some.inj hnew
    exact .inr (.accepted _ _ _ _ together)
  | invitationAccepted _ _ _ _ _ => simp [Row.Holds, Invitation.accept] at hnew
  | rejected decision request _ _ _ rejects =>
    refine .inl ⟨request.row, rfl, ?_⟩
    cases request with
    | emailChange row =>
      simp [RequestRow.decide, Row.Holds, EmailChangeRequest.isOpen, Decision.emailChangeState,
        rejects] at hnew
    | _ => exact hnew
  | approved decision request _ _ _ _ _ _ _ =>
    refine .inl ⟨request.row, rfl, ?_⟩
    cases request with
    | emailChange row =>
      have hpending : row.state = .pending := of_decide_eq_true hchecked.1.pending
      exact ⟨by simp [EmailChangeRequest.isOpen, hpending], hnew.2⟩
    | _ => exact hnew
  | suspended _ _ _ _ subject _ _ => exact .inl ⟨.subject subject, rfl, hnew⟩
  | reinstated _ _ _ _ subject _ _ => exact .inl ⟨.subject subject, rfl, hnew⟩
  | moved request change _ _ subject id together =>
    obtain rfl := Option.some.inj hnew
    have hkey : (Row.subject (subject.move request.newEmail)).key = (.subjects, change.subjectId) := by
      rw [← id]
      rfl
    exact .inr (hkey ▸ .moved _ _ _ _ subject id together)
  | completed _ _ _ _ _ _ =>
    simp [Row.Holds, EmailChangeRequest.complete, EmailChangeRequest.isOpen] at hnew
  | proposed proposal _ _ =>
    unfold Proposal.row at hnew
    split at hnew <;> exact hnew.elim
  | _ => exact hnew.elim

theorem Taken.key_unique {k k' : Key} {email' : Text} (h : Taken changes stage k email)
    (h' : Taken changes stage k' email') : k = k' := by
  cases h <;> cases h' <;> rfl

/-- An address is taken under its lock. -/
theorem Taken.locked {k : Key} (h : Taken changes stage k email) (hchecked : stage.Checked) :
    advisory (.emailLock email) ∈ stage.held := by
  cases h with
  | wanted _ _ _ => exact hchecked.2
  | accepted _ _ _ _ _ => exact List.mem_cons_self
  | moved _ _ _ _ _ _ _ => exact hchecked.2

/-- A stage that wants an address has just found it free. -/
theorem Moves.wants {k : Key} (h : Moves view stage next changes) (hwants : next.Wants k email) :
    changes = [] ∧ view.emailInUse email = false := by
  cases h with
  | addressFree _ _ _ free =>
    obtain ⟨-, rfl⟩ := hwants
    exact ⟨rfl, free⟩
  | _ => exact hwants.elim

theorem Stage.Wants.locked {k : Key} (h : stage.Wants k email) (hchecked : stage.Checked) :
    advisory (.emailLock email) ∈ stage.held := by
  cases stage with
  | addressFree request held now => exact h.2 ▸ hchecked.2
  | _ => exact h.elim

end Effects

section Runs

variable {db : Db} {p : Point Row Stage} {next : Stage} {changes : List (Change Row)}
  {writes : List (Write Row)} {k : Key} {email : Text}

theorem Ran.taken (h : Ran db p next changes writes) (hfresh : holders.Fresh writes k email) :
    Taken changes p.stage k email := by
  obtain ⟨write, hwrite, rfl, hnew, hold⟩ := hfresh
  exact ((h.effects write hwrite).taken h.reads.checked hnew).resolve_left hold

theorem locked_of_held {q : Point Row Stage} (h : advisory (.emailLock email) ∈ q.stage.held) :
    holders.Locked q email :=
  ⟨.exclusive, List.mem_append_left _ h, fun _ => rfl⟩

/-- The change that a completion has locked is the one for the address. -/
theorem newEmail_eq {t : Table Row.key} {change : EmailChangeRequest}
    (hmem : .emailChange change ∈ t) (hmet : references.Met t (.change change.id email)) :
    change.newEmail = email := by
  obtain ⟨row, hrow, hmeets⟩ := hmet
  cases row with
  | emailChange other =>
    have hkey : (Row.emailChange other).key = (Row.emailChange change).key :=
      congrArg (Prod.mk _) hmeets.1
    cases Table.eq_of_key hrow hmem hkey
    exact hmeets.2
  | _ => exact hmeets.elim

/-- An address that a statement takes is no one else's when it has run: what had it before is
written over with it. -/
theorem Ran.holds_none (h : Ran db p next changes writes) (standing : Standing db p)
    (kept : holders.Kept db.rows p) (htaken : Taken changes p.stage k email) {r s : Row}
    (hr : r ∈ putAll db.rows p.writes) (hs : s ∈ putAll (putAll db.rows p.writes) writes)
    (hkey : r.key = s.key) (hother : s.key ≠ k) (hholds : r.Holds email) : ¬ s.Holds email := by
  intro hsame
  have hcaptured : ∀ r ∈ p.stage.captured, r ∈ putAll db.rows p.writes := fun r hr =>
    (standing.1.2.captured r hr).1
  have hchecked := standing.1.2.checked
  have hready : p.stage.Wants k email → holders.Clear (putAll db.rows p.writes) k email :=
    fun h => (kept.ready k email h).2
  have hwanted : ∀ d ∈ p.stage.references, references.Met (putAll db.rows p.writes) d :=
    standing.2.wanted
  have hone : ∀ c ∈ putAll db.rows p.writes, c.Holds email → r = c := by
    intro c hc hcholds
    by_contra hne
    have hkeys : r.key ≠ c.key := fun heq => hne (Table.eq_of_key hr hc heq)
    exact (kept.agrees r hr c hc hkeys email email hholds hcholds).elim (fun h => h rfl) id
  have hnew := h.new_mem
  generalize p.stage = stage at hcaptured hchecked hready htaken hwanted
  cases htaken with
  | wanted request held now =>
    exact (hready ⟨rfl, rfl⟩ r hr (hkey ▸ hother) _ hholds).1 rfl
  | accepted request invitation challenge now together =>
    obtain rfl := hone _ (hcaptured (.invitation invitation) List.mem_cons_self)
      ⟨hchecked.pending, rfl⟩
    have haccepted := hnew (.update (.invitation (invitation.accept request.subjectId)))
      (together ▸ by simp [acceptInvitation])
    obtain rfl := Table.eq_of_key hs haccepted hkey.symm
    simp [Row.Holds, Invitation.accept, Change.row] at hsame
  | moved request change held now subject id together =>
    have hchange := hcaptured (.emailChange change) List.mem_cons_self
    have hemail := newEmail_eq hchange (hwanted _ List.mem_cons_self)
    have hopen : change.isOpen = true := by
      simp [EmailChangeRequest.isOpen, hchecked.1.approved]
    obtain rfl := hone _ hchange ⟨hopen, hemail⟩
    have hcompleted := hnew (.update (.emailChange (change.complete subject.email now)))
      (together ▸ by simp)
    obtain rfl := Table.eq_of_key hs hcompleted hkey.symm
    simp [Row.Holds, EmailChangeRequest.complete, EmailChangeRequest.isOpen, Change.row] at hsame

/-- A statement keeps the addresses apart. -/
theorem Ran.holders_kept (h : Ran db p next changes writes) (standing : Standing db p)
    (kept : holders.Kept db.rows p) : holders.Kept db.rows ⟨next, p.writes ++ writes⟩ := by
  refine kept.statement h.fits (fun _ _ _ _ => trivial) h.locks_subset ?_ ?_ ?_ ?_
  · intro k email hfresh
    exact (locked_of_held ((h.taken hfresh).locked h.reads.checked)).of_subset h.locks_subset
  · intro k email hfresh s hs hother d hd
    have hne : email ≠ d := by
      rintro rfl
      rcases holders.states_putAll h.fits hs hd with ⟨r, hr, hkey, hrd⟩ | hfresh'
      · exact h.holds_none standing kept (h.taken hfresh) hr hs hkey hother hrd hd
      · exact hother ((h.taken hfresh').key_unique (h.taken hfresh))
    exact ⟨.inl hne, .inl hne.symm⟩
  · exact fun _ _ _ _ _ _ _ _ _ hexcused => hexcused.elim
  · intro k email hwants
    obtain ⟨rfl, hfree⟩ := h.moves.wants hwants
    obtain rfl := record_nil.mp h.recorded
    exact ⟨locked_of_held (hwants.locked h.reads_next.checked), clear_of_free hfree k⟩

variable {W : Type}

theorem holders_maintain :
    program.protocol.Maintains (fun (s : State W Db (Point Row Stage)) (_ : Action W Given) =>
        True ∧ program.protocol.Sound WellFormed Standing s)
      (fun db => holders.Consistent db.rows) (fun db p => holders.Kept db.rows p) := by
  refine holders.maintains (fun _ _ h => h) (fun s a allowed w => (allowed.2.relies w).1.1.fits) ?_
  intro s w input next changes writes kept allowed hran hrecord
  have standing := allowed.2.relies w
  exact (standing.1.2.ran hran hrecord).holders_kept standing kept

theorem Founded.holders {db : Db} (h : Founded db) : holders.Consistent db.rows := by
  intro r hr s hs hother c d hc hd hsame
  obtain ⟨person, rfl⟩ := h.people r hr
  obtain ⟨other, rfl⟩ := h.people s hs
  refine h.distinct _ hr _ hs hother ?_ ?_ (a := .subjectEmail c)
  · simp [Row.uniques, show person.email = some c from hc]
  · simp [Row.uniques, show other.email = some c from hsame ▸ hd]

/-- In every state that is reached, an address belongs to one person, pending invitation or
open change of address at most, whatever tenants they are of and however the functions of any
number of workers, their aborts and the clock are interleaved. -/
theorem one_holder [DecidableEq W] {s : State W Db (Point Row Stage)}
    (reached : (accounts W Founded).Reachable s) {r r' : Row} (hr : r ∈ s.committed.rows)
    (hr' : r' ∈ s.committed.rows) (hholds : r.Holds email) (hholds' : r'.Holds email) : r = r' := by
  have sound := (standing_maintains.and holders_maintain).reachable
    (fun db h => ⟨Founded.wellFormed h, Founded.holders h⟩) (reached.restrict fun _ _ => trivial)
  by_contra hne
  have hkeys : r.key ≠ r'.key := fun heq => hne (Table.eq_of_key hr hr' heq)
  exact sound.committed.2 r hr r' hr' hkeys email email hholds hholds' rfl

/-- An invited address is the invitation's alone. -/
theorem one_holder_invited :
    ∃ s : State Bool Db (Point Row Stage), (accounts Bool Founded).Reachable s ∧
      ∃ invitation, .invitation invitation ∈ s.committed.rows ∧ invitation.email = units "e@x" ∧
        ∀ r ∈ s.committed.rows, r.Holds (units "e@x") → r = .invitation invitation := by
  have hrun : (program.protocol.follow (fun _ _ => true) (program.protocol.atRest people)
      (script false (.createInvitation ⟨10, 5, 1, units "e@x", 1, 7⟩) 7)).any
      (fun s : State Bool Db (Point Row Stage) => (s.committed.all Row.invitation?).any
        fun invitation => invitation.state = .pending && invitation.email = units "e@x") = true := by
    decide +kernel
  obtain ⟨s, hs, hrun⟩ := (Option.any_eq_true _ _).mp hrun
  obtain ⟨invitation, hmem, hrun⟩ := List.any_eq_true.mp hrun
  obtain ⟨hpending, hemail⟩ := Bool.and_eq_true_iff.mp hrun
  have hinvitation := (Db.mem_all_iff Row.invitation?_eq_some).mp hmem
  have reached : ((accounts Bool Founded).restrict fun _ _ => True).Reachable s :=
    Protocol.reachable_follow Founded (fun _ _ _ => trivial) people_founded hs
  exact ⟨s, reached.of_restrict, invitation, hinvitation, of_decide_eq_true hemail, fun r hr hholds =>
    one_holder reached.of_restrict hr hinvitation hholds ⟨of_decide_eq_true hpending, of_decide_eq_true hemail⟩⟩

end Runs

end MpcRegistry.Accounts
