import MpcRegistry.Accounts.Codes

/-!
# Sessions from emailed codes

Source: packages/db/migrations/0114_email_code_functions.sql:243-297, 0127_subject_suspension.sql:352-431
and 0132_final_review_state_machine.sql:488-592 and 679-890. A session that a code has opened
is revoked by whoever suspends its person or moves their address.
-/
namespace MpcRegistry.Accounts
open Library WriteSet ReadCommitted Utf16

inductive Grant where
  | opened (id tenantId challengeId : Uuid)
  | person (id : Uuid) (email : Option Text) (suspendedAt : Option Nat)
  deriving DecidableEq, Repr

/-- An unrevoked session with its code, and a person as they are. -/
def Row.Grants : Row → Grant → Prop
  | .session row, .opened id tenantId challengeId => row.revokedAt = none ∧ row.subjectId = id ∧
    row.tenantId = tenantId ∧ row.emailChallengeId = some challengeId
  | .subject row, .person id email suspendedAt =>
    row.id = id ∧ row.email = email ∧ row.suspendedAt = suspendedAt
  | _, _ => False

/-- The session's person is not suspended and has the address that the code was sent to. -/
def Grant.Agree (t : Table Row.key) : Grant → Grant → Prop
  | .opened id _ challengeId, .person id' email suspendedAt => id = id' → suspendedAt = none ∧
    ∃ row, .emailChallenge row ∈ t ∧ row.id = challengeId ∧ email = some row.email
  | _, _ => True

def Grant.guard : Grant → Lock Key UniqueEntry × LockMode
  | .opened id _ _ => shareOf .subjects id
  | .person id _ _ => lockOf .subjects id

/-- The session is still to be revoked. -/
def Stage.Revokes (stage : Stage) : Grant → Grant → Prop
  | .opened id tenantId _, .person id' _ _ => id = id' ∧ .revokeSessions id tenantId ∈ stage.updates
  | _, _ => False

/-- A code stays the code for its address. -/
def Row.KeepsAddress : Row → Row → Prop
  | .emailChallenge old, new => ∃ row, new = .emailChallenge row ∧ row.email = old.email
  | _, _ => True

theorem Grant.Agree.grows {t u : Table Row.key} {c d : Grant} (grows : Grows Row.KeepsAddress t u)
    (h : c.Agree t d) : c.Agree u d := by
  cases c with
  | person _ _ _ => trivial
  | opened id tenantId challengeId =>
    cases d with
    | opened _ _ _ => trivial
    | person id' email suspendedAt =>
      intro hsame
      obtain ⟨hactive, row, hrow, rfl, hemail⟩ := h hsame
      obtain ⟨s, hs, hkey, row', rfl, hkept⟩ := grows _ hrow
      exact ⟨hactive, row', hs, congrArg Prod.snd hkey, hkept ▸ hemail⟩

def grants : Facts program Grant where
  states := Row.Grants
  agree t := Grant.Agree t
  guard := Grant.guard
  intends _ _ _ := False
  excuses := Stage.Revokes
  leads := Row.KeepsAddress
  leads_refl r := by
    cases r with
    | emailChallenge row => exact ⟨row, rfl, rfl⟩
    | _ => trivial
  leads_trans a b c hab hbc := by
    cases a with
    | emailChallenge row =>
      obtain ⟨row', rfl, hkept⟩ := hab
      obtain ⟨row'', rfl, hkept'⟩ := hbc
      exact ⟨row'', rfl, hkept'.trans hkept⟩
    | _ => trivial
  agree_grows := Grant.Agree.grows
  guarded {t c d} h := by
    cases c with
    | person _ _ _ => exact absurd trivial h
    | opened id tenantId challengeId =>
      cases d with
      | opened _ _ _ => exact absurd trivial h
      | person id' email suspendedAt =>
        simp only [Grant.Agree, Classical.not_imp] at h
        exact ⟨by rw [Grant.guard, Grant.guard, lockOf, shareOf, h.1], .inr rfl⟩
  excuses_done {stage c d} hdone h := by
    cases c with
    | person _ _ _ => exact h
    | opened id tenantId challengeId =>
      cases d with
      | opened _ _ _ => exact h
      | person id' email suspendedAt =>
        have hmem := h.2
        rw [updates_of_done hdone] at hmem
        exact List.not_mem_nil hmem

section Effects

variable {view : Db} {stage next : Stage} {changes : List (Change Row)} {old new : Row} {c : Grant}
  {id tenantId challengeId : Uuid} {email : Option Text} {suspendedAt : Option Nat}

theorem Effect.keepsAddress (h : Effect view changes stage next (some old) new) :
    old.KeepsAddress new := by
  cases h with
  | ended _ _ _ _ _ ends =>
    cases ends with
    | challenge _ _ => exact ⟨_, rfl, rfl⟩
    | _ => trivial
  | attempted _ _ _ _ _ => exact ⟨_, rfl, rfl⟩
  | consumed _ _ _ _ _ _ _ => exact ⟨_, rfl, rfl⟩
  | codeBound _ _ _ _ _ => exact ⟨_, rfl, rfl⟩
  | rejected _ request _ _ _ _ => cases request <;> trivial
  | approved _ request _ _ _ _ _ _ _ => cases request <;> trivial
  | _ => trivial

/-- How a session comes to be open: with a code that the person had just used. -/
inductive Opened (changes : List (Change Row)) : Stage → Stage → Uuid → Uuid → Uuid → Prop where
  | signedIn (request : VerifySignIn) (challengeId id tenantId : Uuid) (now : Nat) :
    Opened changes (.sessionAdmitted request challengeId id tenantId now)
      (.ending [shareOf .subjects id] now .sessionCreated []) id tenantId challengeId
  | accepted (request : AcceptInvitation) (invitation : Invitation) (challenge : EmailChallenge)
      (now : Nat) (next : Stage)
      (together : changes = acceptInvitation now request invitation challenge) :
    Opened changes (.acceptanceFree request invitation challenge now) next request.subjectId
      invitation.tenantId challenge.id

theorem Effect.opened {old : Option Row} (h : Effect view changes stage next old new)
    (hnew : new.Grants (.opened id tenantId challengeId)) :
    (∃ r ∈ old, r.Grants (.opened id tenantId challengeId)) ∨
      Opened changes stage next id tenantId challengeId := by
  cases h with
  | ended _ _ _ old _ ends =>
    cases ends with
    | session row => cases hnew.1
    | _ => exact hnew.elim
  | sessionOpened _ _ _ _ _ =>
    obtain ⟨-, rfl, rfl, hcode⟩ := hnew
    cases hcode
    exact .inr (.signedIn _ _ _ _ _)
  | sessionAccepted _ _ _ _ together =>
    obtain ⟨-, rfl, rfl, hcode⟩ := hnew
    cases hcode
    exact .inr (.accepted _ _ _ _ _ together)
  | addressTaken request _ _ _ => cases request <;> exact hnew.elim
  | rejected _ request _ _ _ _ => cases request <;> exact hnew.elim
  | approved _ request _ _ _ _ _ _ _ => cases request <;> exact hnew.elim
  | proposed proposal _ _ =>
    unfold Proposal.row at hnew
    split at hnew <;> exact hnew.elim
  | _ => exact hnew.elim

end Effects

section Runs

variable {db : Db} {p : Point Row Stage} {next : Stage} {changes : List (Change Row)}
  {writes : List (Write Row)} {k : Key} {id tenantId challengeId : Uuid} {email : Option Text}
  {suspendedAt : Option Nat} {r s : Row}

theorem Grants.eq_subject (h : s.Grants (.person id email suspendedAt)) :
    ∃ row, s = .subject row ∧ row.id = id ∧ row.email = email ∧ row.suspendedAt = suspendedAt := by
  cases s with
  | subject row => exact ⟨row, rfl, h⟩
  | _ => exact h.elim

theorem Grants.eq_session (h : s.Grants (.opened id tenantId challengeId)) :
    ∃ row, s = .session row ∧ row.revokedAt = none ∧ row.subjectId = id ∧ row.tenantId = tenantId ∧
      row.emailChallengeId = some challengeId := by
  cases s with
  | session row => exact ⟨row, rfl, h⟩
  | _ => exact h.elim

theorem session_key_ne_subject {session : Session} {person : Subject} :
    (Row.session session).key ≠ (Row.subject person).key := by
  intro hkey
  cases congrArg Prod.fst hkey

/-- The person that a reference to a member leads to. -/
theorem met_member {t : Table Row.key} (h : references.Met t (.member id tenantId)) :
    ∃ row, .subject row ∈ t ∧ row.id = id ∧ row.tenantId = tenantId := by
  obtain ⟨s, hs, hmeets⟩ := h
  cases s with
  | subject row => exact ⟨row, hs, hmeets⟩
  | _ => exact hmeets.elim

/-- Whoever writes a person anew revokes the sessions that they have, next. -/
theorem Ran.revokes (h : Ran db p next changes writes) (standing : Standing db p)
    (kept : grants.Kept db.rows p) {write : Write Row} (hwrite : write ∈ writes)
    (hnew : write.new.Grants (.person id email suspendedAt))
    (hfresh : ¬ ∃ old ∈ write.old, old.Grants (.person id email suspendedAt))
    (hs : s ∈ putAll db.rows p.writes) (hopened : s.Grants (.opened id tenantId challengeId)) :
    .revokeSessions id tenantId ∈ next.updates := by
  have hcaptured : ∀ r ∈ p.stage.captured, r ∈ putAll db.rows p.writes := fun r hr =>
    (standing.1.2.captured r hr).1
  obtain ⟨session, rfl, -, hid, htenant, -⟩ := Grants.eq_session hopened
  obtain ⟨holder, hholder, hholderId, hholderTenant⟩ :=
    met_member (standing.2.complete _ hs (.member session.subjectId session.tenantId) List.mem_cons_self)
  have hagrees := kept.agrees _ hs _ hholder session_key_ne_subject
    (.opened id tenantId challengeId) (.person id holder.email holder.suspendedAt) hopened
    ⟨hholderId.trans hid, rfl, rfl⟩
  have hkey : (Row.subject holder).key = Row.key write.new := by
    obtain ⟨row, hrow, hrowId, -⟩ := Grants.eq_subject hnew
    rw [hrow]
    exact congrArg (Prod.mk _) (hholderId.trans (hid.trans hrowId.symm))
  obtain ⟨_, _, -, hfound, -⟩ := record_old h.recorded h.moves.distinct write hwrite
  rw [← hkey, Table.mem_iff_lookup.mp hholder] at hfound
  have heffect := h.effects write hwrite
  rw [hfound] at heffect hfresh
  generalize write.new = new at heffect hnew
  generalize p.stage = stage at heffect hcaptured hagrees
  generalize hold : some (Row.subject holder) = old at heffect
  cases heffect with
  | ended _ _ _ _ _ ends =>
    obtain rfl := Option.some.inj hold
    cases ends
  | rejected _ request _ _ _ _ => cases request <;> cases hold
  | approved _ request _ _ _ _ _ _ _ => cases request <;> cases hold
  | suspended _ _ _ _ _ _ _ =>
    obtain rfl := Row.subject.inj (Option.some.inj hold)
    simp [Stage.updates, suspensionUpdates, ← hid, ← htenant, hholderId, hholderTenant]
  | reinstated _ _ _ _ _ _ _ =>
    obtain rfl := Row.subject.inj (Option.some.inj hold)
    obtain ⟨hsame, hemail, hactive⟩ := hnew
    rcases hagrees with hagree | hexcused
    · exact absurd ⟨_, rfl, hsame, hemail, (hagree rfl).1.trans hactive⟩ hfresh
    · exact absurd hexcused.2 List.not_mem_nil
  | moved _ change _ _ _ hchange _ =>
    obtain rfl := Row.subject.inj (Option.some.inj hold)
    have hrow := hcaptured (.emailChange change) List.mem_cons_self
    obtain ⟨member, hmember, hmemberId, hmemberTenant⟩ :=
      met_member (standing.2.complete _ hrow (.member change.subjectId change.tenantId) List.mem_cons_self)
    obtain rfl := Row.subject.inj
      (Table.eq_of_key hmember hholder (congrArg (Prod.mk _) (hmemberId.trans hchange.symm)))
    simp [Stage.updates, completionUpdates, ← hid, ← htenant, ← hmemberId, ← hmemberTenant,
      hholderId, hholderTenant]
  | _ => cases hold

theorem Moves.eq_session {view : Db} {request : VerifySignIn} {now : Nat} {held : Locks}
    (h : Moves view (.sessionAdmitted request challengeId id tenantId now)
      (.ending held now .sessionCreated []) changes) :
    changes = [.insert (.session (emailCodeSession request.sessionId tenantId id challengeId
      (now + request.ttlSeconds)))] := by
  cases h with
  | refused _ _ _ _ fails _ => cases fails
  | sessionOpened _ _ _ _ _ => rfl

/-- The person that a verification relies on is the one that its session is for. -/
theorem Ran.verified (h : Ran db p next changes writes) (codes : Codes db.rows p)
    {request : VerifySignIn} {now : Nat} {held : Locks}
    (hstage : p.stage = .sessionAdmitted request challengeId id tenantId now)
    (hnext : next = .ending held now .sessionCreated []) {person : Subject}
    (hs : .subject person ∈ putAll (putAll db.rows p.writes) writes) (hid : person.id = id) :
    ∃ code, .emailChallenge code ∈ db.rows ∧ code.id = challengeId ∧ person.At code.email := by
  have hmoves := h.moves
  rw [hstage, hnext] at hmoves
  have hbefore : .subject person ∈ putAll db.rows p.writes := by
    rcases mem_of_mem_putAll hs with hs | ⟨write, hwrite, hnew⟩
    · exact hs
    · obtain ⟨change, hchange, hrow, -⟩ := record_rows h.recorded write hwrite
      rw [hmoves.eq_session, List.mem_singleton] at hchange
      rw [hchange, hnew] at hrow
      cases hrow
  have hclean : p.stage.Clean := by
    rw [hstage]
    trivial
  have hrelies : Verifying db.rows p challengeId id request.email := by
    have hrelies := codes.relies
    unfold Relies at hrelies
    rw [hstage] at hrelies
    exact hrelies
  obtain ⟨⟨code, hcode, hopens, hmem⟩, -, holder, hholderId, hat, hholder⟩ := hrelies
  obtain rfl := Row.subject.inj (Table.eq_of_key ((codes.subject_mem hclean).mp hbefore) hholder
    (congrArg (Prod.mk _) (hid.trans hholderId.symm)))
  exact ⟨code, hmem, hcode, hopens.email.symm ▸ hat⟩

/-- A session is opened for a person who is active and has the code's address. -/
theorem Ran.opened_agrees (h : Ran db p next changes writes) (standing : Standing db p)
    (codes : Codes db.rows p) (kept : grants.Kept db.rows p) (follows : Follow grants.leads writes)
    (hopened : Opened changes p.stage next id tenantId challengeId)
    (hs : s ∈ putAll (putAll db.rows p.writes) writes)
    (hperson : s.Grants (.person id email suspendedAt)) :
    Grant.Agree (putAll (putAll db.rows p.writes) writes) (.opened id tenantId challengeId)
      (.person id email suspendedAt) := by
  obtain ⟨person, rfl, hid, rfl, rfl⟩ := Grants.eq_subject hperson
  have hchecked := h.reads.checked
  generalize hstage : p.stage = stage at hopened hchecked
  intro _
  cases hopened with
  | signedIn request challengeId id tenantId now =>
    obtain ⟨code, hmem, hcode, hat⟩ := h.verified codes hstage rfl hs hid
    obtain ⟨seen, hseen, hkey, row, rfl, hkept⟩ :=
      grows_putAll grants.leads_refl grants.leads_trans standing.1.1.fits kept.follows _ hmem
    obtain ⟨left, hleft, hkey', row', rfl, hkept'⟩ :=
      grows_putAll grants.leads_refl grants.leads_trans h.fits follows _ hseen
    refine ⟨hat.active, row', hleft, ?_, ?_⟩
    · exact (congrArg Prod.snd (hkey'.trans hkey)).trans hcode
    · rw [hkept', hkept, hat.email]
  | accepted request invitation challenge now next together =>
    have hwritten := h.new_mem
    have hinvited := hwritten (.insert (.subject (invitedSubject now request.subjectId invitation)))
      (together ▸ by simp [acceptInvitation])
    obtain rfl := Row.subject.inj (Table.eq_of_key hs hinvited (congrArg (Prod.mk _) hid))
    have hbound := hwritten (.update (.emailChallenge
      { challenge.consumed now with subjectId := some request.subjectId }))
      (together ▸ by simp [acceptInvitation])
    exact ⟨rfl, _, hbound, rfl, congrArg some hchecked.email.symm⟩

/-- Once the sessions of a person are revoked, none is open. -/
theorem Ran.revoked (h : Ran db p next changes writes) {held : Locks} {now : Nat} {status : Status}
    {rest : List Update} (hstage : p.stage = .ending held now status (.revokeSessions id tenantId :: rest))
    (hs : s ∈ putAll (putAll db.rows p.writes) writes) :
    ¬ s.Grants (.opened id tenantId challengeId) := by
  intro hopened
  rcases grants.states_putAll (c := .opened id tenantId challengeId) h.fits hs hopened
    with ⟨r, hr, hkey, hstood⟩ | ⟨write, hwrite, -, hnew, hold⟩
  · obtain ⟨row, rfl, hopen, hid, htenant, -⟩ := Grants.eq_session hstood
    have hrevoked : (Update.revokeSessions id tenantId).row now (db.write p.writes) (.session row) =
        some (.session { row with revokedAt := some now }) := if_pos ⟨hid, htenant, hopen⟩
    obtain rfl := h.ended hstage hr hs hkey hrevoked
    cases hopened.1
  · have hfresh := ((h.effects write hwrite).opened hnew).resolve_left hold
    rw [hstage] at hfresh
    cases hfresh

theorem Ran.follows_address (h : Ran db p next changes writes) : Follow grants.leads writes := by
  intro write hwrite old hold
  have heffect := h.effects write hwrite
  rw [show write.old = some old from hold] at heffect
  exact heffect.keepsAddress

theorem Opened.locked (hopened : Opened changes p.stage next id tenantId challengeId)
    (h : Ran db p next changes writes) :
    grants.Locked ⟨next, p.writes ++ writes⟩ (.opened id tenantId challengeId) := by
  generalize p.stage = stage at hopened
  cases hopened with
  | signedIn request challengeId id tenantId now =>
    exact ⟨.share, List.mem_append_left _ List.mem_cons_self, fun hmode => hmode⟩
  | accepted request invitation challenge now next together =>
    obtain ⟨write, hwrite, hnew⟩ := record_written h.recorded
      (.insert (.subject (invitedSubject now request.subjectId invitation)))
      (together ▸ by simp [acceptInvitation])
    have hlocked := Program.mem_locks_row (P := program) (p := ⟨next, p.writes ++ writes⟩)
      (List.mem_append_right _ hwrite)
    rw [hnew] at hlocked
    exact ⟨.exclusive, hlocked, fun _ => rfl⟩

/-- A statement keeps the sessions with the people who proved an address. -/
theorem Ran.grants_kept (h : Ran db p next changes writes) (standing : Standing db p)
    (codes : Codes db.rows p) (kept : grants.Kept db.rows p) :
    grants.Kept db.rows ⟨next, p.writes ++ writes⟩ := by
  have follows := h.follows_address
  refine kept.statement h.fits follows h.locks_subset ?_ ?_ ?_ (fun _ _ h => h.elim)
  case refine_1 =>
    rintro k c ⟨write, hwrite, rfl, hnew, hold⟩
    cases c with
    | opened id tenantId challengeId =>
      exact (((h.effects write hwrite).opened hnew).resolve_left hold).locked h
    | person id email suspendedAt =>
      obtain ⟨row, hrow, rfl, -⟩ := Grants.eq_subject hnew
      have hlocked := Program.mem_locks_row (P := program) (p := ⟨next, p.writes ++ writes⟩)
        (List.mem_append_right _ hwrite)
      rw [hrow] at hlocked
      exact ⟨.exclusive, hlocked, fun _ => rfl⟩
  case refine_2 =>
    rintro k c ⟨write, hwrite, rfl, hnew, hold⟩ s hs hother d hd
    cases c with
    | opened id tenantId challengeId =>
      have hopened := ((h.effects write hwrite).opened hnew).resolve_left hold
      refine ⟨.inl ?_, .inl ?_⟩
      · cases d with
        | opened _ _ _ => trivial
        | person id' email suspendedAt =>
          intro hsame
          exact h.opened_agrees standing codes kept follows hopened hs (hsame ▸ hd) rfl
      · cases d <;> trivial
    | person id email suspendedAt =>
      refine ⟨.inl trivial, ?_⟩
      cases d with
      | person _ _ _ => exact .inl trivial
      | opened id' tenantId challengeId =>
        by_cases hsame : id' = id
        · subst hsame
          rcases grants.states_putAll (c := .opened id' tenantId challengeId) h.fits hs hd
            with ⟨r, hr, -, hstood⟩ | ⟨other, hotherWrite, -, hotherNew, hotherOld⟩
          · exact .inr ⟨rfl, h.revokes standing kept hwrite hnew hold hr hstood⟩
          · have hopened := ((h.effects other hotherWrite).opened hotherNew).resolve_left hotherOld
            have hperson : write.new ∈ putAll (putAll db.rows p.writes) writes := by
              obtain ⟨change, hchange, hrow, -⟩ := record_rows h.recorded write hwrite
              exact hrow ▸ h.new_mem change hchange
            exact .inl (h.opened_agrees standing codes kept follows hopened hperson hnew)
        · exact .inl fun heq => absurd heq hsame
  case refine_3 =>
    intro r hr s hs hother c d hc hd hrevokes
    cases c with
    | person _ _ _ => exact hrevokes.elim
    | opened id tenantId challengeId =>
      cases d with
      | opened _ _ _ => exact hrevokes.elim
      | person id' email suspendedAt =>
        obtain ⟨rfl, hmem⟩ := hrevokes
        rcases h.updates_left hmem with ⟨_, _, _, _, hstage⟩ | hleft
        · exact absurd hc (h.revoked hstage hr)
        · exact .inr ⟨rfl, hleft⟩

variable {W : Type}

theorem grants_maintain :
    program.protocol.Maintains (fun (s : State W Db (Point Row Stage)) (_ : Action W Given) =>
        True ∧ program.protocol.Sound (fun db => WellFormed db ∧ True)
          (fun db p => Standing db p ∧ Codes db.rows p) s)
      (fun db => grants.Consistent db.rows) (fun db p => grants.Kept db.rows p) := by
  refine grants.maintains (fun _ _ h => h) (fun s a allowed w => (allowed.2.relies w).1.1.1.fits) ?_
  intro s w input next changes writes kept allowed hran hrecord
  have hrelies := allowed.2.relies w
  exact (hrelies.1.1.2.ran hran hrecord).grants_kept hrelies.1 hrelies.2 kept

theorem Founded.grants {db : Db} (h : Founded db) : grants.Consistent db.rows := by
  intro r hr s hs _ c d hc _
  obtain ⟨person, rfl⟩ := h.people r hr
  cases c with
  | person _ _ _ => trivial
  | opened _ _ _ => exact hc.elim

/-- In every state that is reached, a code has opened one session at most, and was compared five
times at most; the session is of the person who used the code, and while it is not revoked, they
are not suspended and their address is still the one that the code was sent to. -/
theorem code_opens_one_session [DecidableEq W] {s : State W Db (Point Row Stage)}
    (reached : (accounts W Founded).Reachable s) {session : Session}
    (hsession : .session session ∈ s.committed.rows)
    (code : session.emailChallengeId = some challengeId) :
    (∀ other, .session other ∈ s.committed.rows → other.emailChallengeId = some challengeId →
      other = session) ∧
    ∃ challenge, .emailChallenge challenge ∈ s.committed.rows ∧ challenge.id = challengeId ∧
      challenge.consumedAt ≠ none ∧ challenge.attempts ≤ 5 ∧
      challenge.subjectId = some session.subjectId ∧
      ∃ person, .subject person ∈ s.committed.rows ∧ person.id = session.subjectId ∧
        (session.revokedAt = none → person.suspendedAt = none ∧ person.email = some challenge.email) := by
  have sound := ((standing_maintains.and codes_maintain).and grants_maintain).reachable
    (fun db h => ⟨⟨Founded.wellFormed h, trivial⟩, Founded.grants h⟩) (reached.restrict fun _ _ => trivial)
  obtain ⟨⟨⟨⟨hdistinct, hok⟩, hcomplete⟩, -⟩, hgrants⟩ := sound.committed
  refine ⟨fun other hother hcode => ?_, ?_⟩
  · by_contra hne
    have hkeys : (Row.session other).key ≠ (Row.session session).key := fun hkey =>
      hne (Row.session.inj (Table.eq_of_key hother hsession hkey))
    refine hdistinct _ hother _ hsession hkeys (a := .sessionOfChallenge challengeId) ?_ ?_
    · simp [Row.uniques, hcode]
    · simp [Row.uniques, code]
  · obtain ⟨used, hused, hmeets⟩ :=
      hcomplete _ hsession (.usedCode challengeId session.subjectId) (by
        show _ ∈ (Row.session session).references
        simp [Row.references, code])
    obtain ⟨person, hperson, hpersonId, -⟩ :=
      met_member (hcomplete _ hsession (.member session.subjectId session.tenantId) List.mem_cons_self)
    cases used with
    | emailChallenge challenge =>
      obtain ⟨hid, hconsumed, hsubject⟩ := hmeets
      refine ⟨challenge, hused, hid, hconsumed, (hok _ hused).1, hsubject, person, hperson,
        hpersonId, fun hopen => ?_⟩
      obtain ⟨hactive, row, hrow, hrowId, hemail⟩ := hgrants _ hsession _ hperson
        session_key_ne_subject (.opened session.subjectId session.tenantId challengeId)
        (.person person.id person.email person.suspendedAt) ⟨hopen, rfl, rfl, code⟩ ⟨rfl, rfl, rfl⟩
        hpersonId.symm
      obtain rfl := Row.emailChallenge.inj
        (Table.eq_of_key hrow hused (congrArg (Prod.mk _) (hrowId.trans hid.symm)))
      exact ⟨hactive, hemail⟩
    | _ => exact hmeets.elim

/-- Person 1 asks for a code and signs in with it. -/
def signsIn : List (ReadCommitted.Action Bool Given) :=
  script true (.startChallenge ⟨.signIn, units "a@x", 0, 30, 7⟩) 4 ++
    script true (.verifySignIn ⟨units "a@x", 7, 40, 3600⟩) 5

/-- The code has opened their session, and no other. -/
theorem code_opens_one_session_signed_in :
    ∃ s : State Bool Db (Point Row Stage), (accounts Bool Founded).Reachable s ∧
      ∃ session, .session session ∈ s.committed.rows ∧ session.emailChallengeId = some 30 ∧
        (∀ other, .session other ∈ s.committed.rows → other.emailChallengeId = some 30 →
          other = session) ∧
        ∃ challenge, .emailChallenge challenge ∈ s.committed.rows ∧ challenge.id = 30 ∧
          challenge.consumedAt ≠ none ∧ challenge.attempts ≤ 5 ∧
          challenge.subjectId = some session.subjectId ∧
          ∃ person, .subject person ∈ s.committed.rows ∧ person.id = session.subjectId ∧
            (session.revokedAt = none →
              person.suspendedAt = none ∧ person.email = some challenge.email) := by
  let session : Session := emailCodeSession 40 10 1 30 3600
  have hrun : (program.protocol.follow (fun _ _ => true) (program.protocol.atRest people)
      signsIn).any (fun s : State Bool Db (Point Row Stage) =>
        s.committed.rows.rows.contains (.session session)) = true := by
    decide +kernel
  obtain ⟨s, hs, hrun⟩ := (Option.any_eq_true _ _).mp hrun
  have hsession : .session session ∈ s.committed.rows := List.contains_iff_mem.mp hrun
  have reached : ((accounts Bool Founded).restrict fun _ _ => True).Reachable s :=
    Protocol.reachable_follow Founded (fun _ _ _ => trivial) people_founded hs
  exact ⟨s, reached.of_restrict, session, hsession, rfl,
    code_opens_one_session reached.of_restrict hsession rfl⟩

end Runs

end MpcRegistry.Accounts
