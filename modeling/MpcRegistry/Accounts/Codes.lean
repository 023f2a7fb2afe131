import MpcRegistry.Accounts.References

/-!
# What a code is good for

Source: packages/db/migrations/0114_email_code_functions.sql:115-260,
0127_subject_suspension.sql:352-431 and 0132_final_review_state_machine.sql:488-592. A
verification uses the code and then reads the person without a lock. It still finds them as it
read them when it opens the session: whoever suspends a person or moves their address closes
their codes, and for that would need the row of the code, which the verification has.
-/
namespace MpcRegistry.Accounts
open Library WriteSet ReadCommitted Utf16

/-- The code is live and signs in the person, under the address. -/
structure EmailChallenge.Opens (row : EmailChallenge) (id : Uuid) (email : Text) : Prop where
  live : row.live = true
  purpose : row.purpose = .signIn
  person : row.subjectId = some id
  email : row.email = email

/-- The person is not suspended and has the address. -/
structure Subject.At (row : Subject) (email : Text) : Prop where
  active : row.suspendedAt = none
  email : row.email = some email

def Stage.updates : Stage → List Update
  | .ending _ _ _ updates => updates
  | _ => []

/-- No transaction with such a stage has written a person. -/
def Stage.Clean : Stage → Prop
  | .ending _ _ _ updates => ∃ challenge, .issue challenge ∈ updates ∧ challenge.purpose = .signIn
  | _ => True

/-- The code that a verification has used is still live for others, and the person as read. -/
structure Verifying (t : Table Row.key) (p : Point Row Stage) (challengeId id : Uuid) (email : Text) :
    Prop where
  code : ∃ row, row.id = challengeId ∧ row.Opens id email ∧ .emailChallenge row ∈ t
  locked : lockOf .emailChallenges challengeId ∈ program.protocol.locks p
  holder : ∃ row, row.id = id ∧ row.At email ∧ .subject row ∈ t

/-- What a verification relies on. -/
def Relies (t : Table Row.key) (p : Point Row Stage) : Prop :=
  match p.stage with
  | .idle => p.writes = []
  | .begun _ _ => p.writes = []
  | .codeConsumed _ challenge _ =>
    .emailChallenge challenge ∈ t ∧ lockOf .emailChallenges challenge.id ∈ program.protocol.locks p
  | .holderRead request challengeId id _ _ => Verifying t p challengeId id request.email
  | .sessionAdmitted request challengeId id _ _ => Verifying t p challengeId id request.email
  | _ => True

/-- What a transaction has seen and left of the codes for signing in. -/
structure Codes (t : Table Row.key) (p : Point Row Stage) : Prop where
  relies : Relies t p
  clean : p.stage.Clean → ∀ write ∈ p.writes, (Row.key write.new).1 ≠ .subjects
  /-- A code for a person is seen by all, or its transaction holds a lock on them. -/
  gains : ∀ row, .emailChallenge row ∈ putAll t p.writes → ∀ id email, row.Opens id email →
    (∃ row', row'.id = row.id ∧ row'.Opens id email ∧ .emailChallenge row' ∈ t) ∨
      ∃ mode, (.row (.subjects, id), mode) ∈ program.protocol.locks p
  /-- Who moves or suspends a person closes their codes. -/
  settles : ∀ a b email, .subject a ∈ t → .subject b ∈ putAll t p.writes → b.id = a.id → a.At email →
    ¬ b.At email → .supersede .signIn email ∈ p.stage.updates ∨
      ∀ row, .emailChallenge row ∈ putAll t p.writes → ¬ row.Opens a.id email

section Effects

variable {view : Db} {stage next : Stage} {changes : List (Change Row)} {old new : Row}
  {id : Uuid} {email : Text} {now : Nat}

theorem EmailChallenge.Opens.not_superseded {row : EmailChallenge} :
    ¬ (row.supersede now).Opens id email := by
  intro h
  have hlive := h.live
  simp [EmailChallenge.live, EmailChallenge.supersede] at hlive

theorem EmailChallenge.Opens.not_consumed {row : EmailChallenge} :
    ¬ (row.consumed now).Opens id email := by
  intro h
  have hlive := h.live
  simp [EmailChallenge.live, EmailChallenge.consumed] at hlive

/-- A live code was live before, or is issued. -/
theorem Effect.opens {old : Option Row} {row : EmailChallenge}
    (h : Effect view changes stage next old (.emailChallenge row)) (hopens : row.Opens id email) :
    (∃ row', row'.id = row.id ∧ row'.Opens id email ∧ .emailChallenge row' ∈ old) ∨
      stage.Clean ∧ shareOf .subjects id ∈ next.held := by
  generalize hnew : Row.emailChallenge row = new at h
  cases h with
  | issued challenge held now status rest =>
    obtain rfl := Row.emailChallenge.inj hnew
    refine .inr ⟨⟨row, List.mem_cons_self, hopens.purpose⟩, ?_⟩
    simp [Stage.held, Update.references, hopens.person]
  | ended _ _ _ _ _ ends =>
    subst hnew
    cases ends with
    | challenge row _ => exact absurd hopens EmailChallenge.Opens.not_superseded
  | attempted _ _ row live _ =>
    obtain rfl := Row.emailChallenge.inj hnew
    exact .inl ⟨row, rfl, ⟨live, hopens.purpose, hopens.person, hopens.email⟩, rfl⟩
  | consumed _ _ _ _ _ _ _ =>
    obtain rfl := Row.emailChallenge.inj hnew
    exact absurd hopens EmailChallenge.Opens.not_consumed
  | codeBound _ _ _ _ _ =>
    obtain rfl := Row.emailChallenge.inj hnew
    have hlive := hopens.live
    simp [EmailChallenge.live, EmailChallenge.consumed] at hlive
  | addressTaken request _ _ _ => cases request <;> cases hnew
  | rejected _ request _ _ _ _ => cases request <;> cases hnew
  | approved _ request _ _ _ _ _ _ _ => cases request <;> cases hnew
  | proposed proposal _ _ =>
    unfold Proposal.row at hnew
    split at hnew <;> cases hnew
  | _ => cases hnew

/-- How a person comes to be written. -/
inductive Changed : Stage → Option Subject → Subject → Prop where
  | invited (now : Nat) (id : Uuid) (invitation : Invitation) (held : Locks) (status : Status) :
    Changed (.ending held now status []) none (invitedSubject now id invitation)
  | suspended (held : Locks) (now : Nat) (status : Status) (row : Subject) (since : Nat) :
    Changed (.ending held now status (suspensionUpdates row)) (some row) (row.suspend (some since))
  | reinstated (held : Locks) (now : Nat) (status : Status) (row : Subject) :
    Changed (.ending held now status []) (some row) (row.suspend none)
  | moved (held : Locks) (now : Nat) (status : Status) (change : EmailChangeRequest) (row : Subject)
      (email : Text) :
    Changed (.ending held now status (completionUpdates change row.email)) (some row) (row.move email)

theorem Effect.changed {old : Option Row} (h : Effect view changes stage next old new)
    (hkey : new.key.1 = .subjects) :
    stage.Clean ∧ stage.updates = [] ∧ ∃ row old', new = .subject row ∧ old = old'.map .subject ∧ Changed next old' row := by
  cases h with
  | ended _ _ _ _ _ ends => cases ends <;> cases hkey
  | addressTaken request _ _ _ => cases request <;> cases hkey
  | personInvited _ _ _ _ _ => exact ⟨trivial, rfl, _, none, rfl, rfl, .invited _ _ _ _ _⟩
  | rejected _ request _ _ _ _ => cases request <;> cases hkey
  | approved _ request _ _ _ _ _ _ _ => cases request <;> cases hkey
  | suspended _ _ _ _ subject _ _ => exact ⟨trivial, rfl, _, some subject, rfl, rfl, .suspended _ _ _ _ _⟩
  | reinstated _ _ _ _ subject _ _ => exact ⟨trivial, rfl, _, some subject, rfl, rfl, .reinstated _ _ _ _⟩
  | moved _ _ _ _ subject _ _ => exact ⟨trivial, rfl, _, some subject, rfl, rfl, .moved _ _ _ _ _ _⟩
  | proposed proposal _ _ =>
    unfold Proposal.row at hkey
    split at hkey <;> cases hkey
  | _ => cases hkey

theorem not_issues_suspension {challenge : EmailChallenge} {subject : Subject} :
    .issue challenge ∉ suspensionUpdates subject := by
  cases hemail : subject.email <;> simp [suspensionUpdates, hemail]

theorem not_issues_completion {challenge : EmailChallenge} {change : EmailChangeRequest}
    {previousEmail : Option Text} : .issue challenge ∉ completionUpdates change previousEmail := by
  cases previousEmail <;> simp [completionUpdates]

theorem Changed.not_clean {old : Option Subject} {row : Subject} (h : Changed next old row) :
    ¬ next.Clean := by
  rintro hclean
  cases h with
  | invited _ _ _ _ _ => exact absurd hclean.choose_spec.1 List.not_mem_nil
  | suspended _ _ _ _ _ => exact not_issues_suspension hclean.choose_spec.1
  | reinstated _ _ _ _ => exact absurd hclean.choose_spec.1 List.not_mem_nil
  | moved _ _ _ _ _ _ => exact not_issues_completion hclean.choose_spec.1

/-- Whoever was at an address and is no longer has its codes closed next. -/
theorem Changed.closes {old row : Subject} (h : Changed next (some old) row) (hat : old.At email)
    (hmoved : ¬ row.At email) : .supersede .signIn email ∈ next.updates := by
  cases h with
  | suspended _ _ _ _ _ => simp [Stage.updates, suspensionUpdates, hat.email]
  | reinstated _ _ _ _ => exact absurd ⟨rfl, hat.email⟩ hmoved
  | moved _ _ _ _ _ _ => simp [Stage.updates, completionUpdates, hat.email]

/-- Where nothing has been written on a person before, nothing was before that. -/
theorem Moves.clean (h : Moves view stage next changes) (hclean : next.Clean) : stage.Clean := by
  cases h with
  | ended _ _ _ _ _ =>
    obtain ⟨challenge, hmem, hpurpose⟩ := hclean
    exact ⟨challenge, List.mem_cons_of_mem _ hmem, hpurpose⟩
  | refused _ _ _ _ _ _ => exact absurd hclean.choose_spec.1 List.not_mem_nil
  | compared _ _ _ _ _ _ _ _ _ _ => exact absurd hclean.choose_spec.1 List.not_mem_nil
  | _ => trivial

end Effects

section Runs

variable {db : Db} {p q : Point Row Stage} {next : Stage} {changes : List (Change Row)}
  {writes : List (Write Row)} {id : Uuid} {email : Text}

/-- What others commit leaves a locked row alone. -/
theorem mem_committed_locked {t : Table Row.key} {r : Row} (apart : program.protocol.Compatible p q)
    (locked : (.row r.key, .exclusive) ∈ program.protocol.locks p) :
    r ∈ putAll t q.writes ↔ r ∈ t := by
  refine mem_putAll_of_not_mem fun write hwrite hkey => ?_
  have hlock := Program.mem_locks_row (P := program) hwrite
  rw [hkey] at hlock
  exact apart.not_both locked hlock

/-- An UPDATE that is left to do runs next, or is left still. -/
theorem Ran.updates_left (h : Ran db p next changes writes) {update : Update}
    (hmem : update ∈ p.stage.updates) :
    (∃ held now status rest, p.stage = .ending held now status (update :: rest)) ∨
      update ∈ next.updates := by
  generalize hstage : p.stage = stage at hmem
  cases stage with
  | ending held now status updates =>
    cases updates with
    | nil => exact absurd hmem List.not_mem_nil
    | cons first rest =>
      obtain ⟨rfl, -⟩ := h.ends _ _ _ _ _ hstage
      rcases List.mem_cons.mp hmem with rfl | hmem
      · exact .inl ⟨held, now, status, rest, rfl⟩
      · exact .inr hmem
  | _ => exact absurd hmem List.not_mem_nil

/-- A live code for signing in is one from before, or the statement has just issued it. -/
theorem Ran.opens (h : Ran db p next changes writes) {row : EmailChallenge}
    (hrow : .emailChallenge row ∈ putAll (putAll db.rows p.writes) writes)
    (hopens : row.Opens id email) :
    (∃ row', row'.id = row.id ∧ row'.Opens id email ∧
        .emailChallenge row' ∈ putAll db.rows p.writes) ∨
      p.stage.Clean ∧ shareOf .subjects id ∈ next.held := by
  rcases mem_of_mem_putAll hrow with hrow | ⟨write, hwrite, hnew⟩
  · exact .inl ⟨row, rfl, hopens, hrow⟩
  · have heffect := h.effects write hwrite
    rw [hnew] at heffect
    refine (heffect.opens hopens).imp_left ?_
    rintro ⟨row', hid, hopens', hold⟩
    exact ⟨row', hid, hopens', h.old_mem hwrite hold⟩

/-- A superseded code is not live once the statement has run. -/
theorem Ran.superseded (h : Ran db p next changes writes) {held : Locks} {now : Nat}
    {status : Status} {rest : List Update}
    (hstage : p.stage = .ending held now status (.supersede .signIn email :: rest))
    {row : EmailChallenge} (hrow : .emailChallenge row ∈ putAll (putAll db.rows p.writes) writes) :
    ¬ row.Opens id email := by
  intro hopens
  obtain ⟨-, hchanges⟩ := h.ends _ _ _ _ _ hstage
  rcases mem_of_mem_putAll hrow with hbefore | ⟨write, hwrite, hnew⟩
  · have hended : (Update.supersede .signIn email).row now (db.write p.writes) (.emailChallenge row) =
        some (.emailChallenge (row.supersede now)) :=
      if_pos ⟨hopens.purpose, hopens.email, hopens.live⟩
    have hsame := h.ended hstage hbefore hrow rfl hended
    rw [Row.emailChallenge.inj hsame] at hopens
    exact hopens.not_superseded
  · obtain ⟨change, hchange, hrow', -⟩ := record_rows h.recorded write hwrite
    rw [hchanges] at hchange
    rcases Update.changes_cases hchange with ⟨_, hissue, -⟩ | ⟨old, -, new, hold, rfl⟩
    · cases hissue
    · have hends := Update.ends_of_row hold
      rw [show new = .emailChallenge row from hrow'.trans hnew] at hends
      cases hends with
      | challenge row _ => exact hopens.not_superseded

theorem Ran.clean (h : Ran db p next changes writes) (codes : Codes db.rows p)
    (hclean : next.Clean) : ∀ write ∈ p.writes ++ writes, (Row.key write.new).1 ≠ .subjects := by
  intro write hwrite hkey
  rcases List.mem_append.mp hwrite with hwrite | hwrite
  · exact codes.clean (h.moves.clean hclean) write hwrite hkey
  · obtain ⟨-, -, _, _, -, -, hchanged⟩ := (h.effects write hwrite).changed hkey
    exact hchanged.not_clean hclean

/-- Where no person has been written, they are as committed. -/
theorem Codes.subject_mem {t : Table Row.key} (codes : Codes t p) (hclean : p.stage.Clean)
    {row : Subject} : .subject row ∈ putAll t p.writes ↔ .subject row ∈ t :=
  mem_putAll_of_not_mem fun write hwrite hkey =>
    codes.clean hclean write hwrite (congrArg Prod.fst hkey)

theorem Ran.relies (h : Ran db p next changes writes) (codes : Codes db.rows p) :
    Relies db.rows ⟨next, p.writes ++ writes⟩ := by
  have hrelies := codes.relies
  have hsubject : p.stage.Clean → ∀ row : Subject,
      .subject row ∈ putAll db.rows p.writes ↔ .subject row ∈ db.rows :=
    fun hclean _ => codes.subject_mem hclean
  have hlocks := h.locks_subset
  have hcaptured := h.reads_next.captured
  have hchecked := h.reads.checked
  have hmoves := h.moves
  have hrecorded := h.recorded
  unfold Relies at hrelies
  generalize p.stage = stage at hrelies hsubject hmoves hchecked
  cases hmoves with
  | taken _ =>
    have hnone : p.writes = [] := hrelies
    obtain rfl := record_nil.mp hrecorded
    simp [Relies, hnone]
  | signInConsumed request now row right =>
    have hnone : p.writes = [] := hrelies
    obtain ⟨hrow, -⟩ := Db.liveChallenge_eq_some right.found
    rw [hnone] at hrow
    exact ⟨hrow, (hcaptured _ List.mem_cons_self).2⟩
  | holderRead request challenge now subject found holder hemail active =>
    obtain ⟨hcode, hlocked⟩ := hrelies
    obtain ⟨hlive, hpurpose, hsame⟩ := hchecked
    have hrow := (hsubject trivial subject).mp (Db.mem_of_lookup (Db.subject?_eq_some found))
    exact ⟨⟨challenge, rfl, ⟨hlive, hpurpose, holder, hsame⟩, hcode⟩, hlocks _ hlocked,
      ⟨subject, rfl, ⟨active, hemail⟩, hrow⟩⟩
  | sessionAdmitted request challengeId subjectId tenantId now _ =>
    obtain ⟨hcode, hlocked, hholder⟩ := hrelies
    exact ⟨hcode, hlocks _ hlocked, hholder⟩
  | _ => trivial

theorem Ran.gains (h : Ran db p next changes writes) (codes : Codes db.rows p)
    {row : EmailChallenge} (hrow : .emailChallenge row ∈ putAll db.rows (p.writes ++ writes))
    (hopens : row.Opens id email) :
    (∃ row', row'.id = row.id ∧ row'.Opens id email ∧ .emailChallenge row' ∈ db.rows) ∨
      ∃ mode, (.row (.subjects, id), mode) ∈ program.protocol.locks ⟨next, p.writes ++ writes⟩ := by
  rw [putAll_append] at hrow
  rcases h.opens hrow hopens with ⟨row', hid, hopens', hrow'⟩ | ⟨-, hlocked⟩
  · rcases codes.gains row' hrow' id email hopens' with ⟨first, hfirst, hopens'', hmem⟩ | ⟨mode, hmode⟩
    · exact .inl ⟨first, hfirst.trans hid, hopens'', hmem⟩
    · exact .inr ⟨mode, h.locks_subset _ hmode⟩
  · exact .inr ⟨.share, List.mem_append_left _ hlocked⟩

theorem Ran.settles (h : Ran db p next changes writes) (codes : Codes db.rows p) {a b : Subject}
    (ha : .subject a ∈ db.rows) (hb : .subject b ∈ putAll (putAll db.rows p.writes) writes)
    (hid : b.id = a.id) (hat : a.At email) (hmoved : ¬ b.At email) :
    .supersede .signIn email ∈ next.updates ∨
      ∀ row, .emailChallenge row ∈ putAll (putAll db.rows p.writes) writes → ¬ row.Opens a.id email := by
  have hkey : (Row.subject b).key = (Row.subject a).key := congrArg (Prod.mk _) hid
  rcases mem_of_mem_putAll hb with hb | ⟨write, hwrite, hnew⟩
  · rcases codes.settles a b email ha hb hid hat hmoved with hpending | hnone
    · -- the code is closed now or later
      rcases h.updates_left hpending with ⟨_, _, _, _, hstage⟩ | hleft
      · exact .inr fun row hrow => h.superseded hstage hrow
      · exact .inl hleft
    · refine .inr fun row hrow hopens => ?_
      rcases h.opens hrow hopens with ⟨row', -, hopens', hrow'⟩ | ⟨hclean, -⟩
      · exact hnone row' hrow' hopens'
      · obtain rfl := Row.subject.inj (Table.eq_of_key ((codes.subject_mem hclean).mp hb) ha hkey)
        exact hmoved hat
  · obtain ⟨hclean, -, row, old, hrow, hold, hchanged⟩ :=
      (h.effects write hwrite).changed (by rw [hnew]; rfl)
    obtain rfl := Row.subject.inj (hnew.symm.trans hrow)
    have hbefore := (codes.subject_mem hclean).mpr ha
    obtain ⟨_, _, -, hfound, -⟩ := record_old h.recorded h.moves.distinct write hwrite
    rw [hnew, hkey, Table.mem_iff_lookup.mp hbefore, hold] at hfound
    cases old with
    | none => cases hfound
    | some old =>
      obtain rfl := Row.subject.inj (Option.some.inj hfound)
      exact .inl (hchanged.closes hat hmoved)

/-- A statement keeps what is known of the codes. -/
theorem Ran.codes_kept (h : Ran db p next changes writes) (codes : Codes db.rows p) :
    Codes db.rows ⟨next, p.writes ++ writes⟩ where
  relies := h.relies codes
  clean := h.clean codes
  gains _ hrow _ _ hopens := h.gains codes hrow hopens
  settles a b email ha hb hid hat hmoved := by
    rw [putAll_append] at hb ⊢
    exact h.settles codes ha hb hid hat hmoved

/-! ## Once another transaction has committed -/

variable {t : Table Row.key}

/-- A person that a verification relies on is as it has read them: whoever changed them has
closed the code, which the verification holds. -/
theorem Verifying.stable {challengeId : Uuid} (h : Verifying t p challengeId id email)
    (codes : Codes t q) (hfits : Fits t q.writes) (apart : program.protocol.Compatible p q)
    (hdone : q.stage.updates = []) : Verifying (putAll t q.writes) p challengeId id email := by
  obtain ⟨⟨row, rfl, hopens, hrow⟩, hlocked, holder, rfl, hat, hholder⟩ := h
  have hcode := (mem_committed_locked (r := .emailChallenge row) apart hlocked).mpr hrow
  obtain ⟨after, hafter, hkey, -⟩ :=
    hfits.exists_after (R := fun _ _ => True) (fun _ => trivial) (fun _ _ _ _ _ => trivial)
      (fun _ _ _ _ => trivial) hholder
  have hsubject : ∃ person, after = .subject person ∧ person.id = holder.id := by
    cases after with
    | subject person => exact ⟨person, rfl, congrArg Prod.snd hkey⟩
    | _ => cases congrArg Prod.fst hkey
  obtain ⟨person, rfl, hid⟩ := hsubject
  by_cases hstays : person.At email
  · exact ⟨⟨row, rfl, hopens, hcode⟩, hlocked, person, hid, hstays, hafter⟩
  · rcases codes.settles holder person email hholder hafter hid hat hstays with hpending | hnone
    · rw [hdone] at hpending
      exact absurd hpending List.not_mem_nil
    · exact absurd hopens (hnone row hcode)

theorem Codes.stable (h : Codes t p) (codes : Codes t q) (hfits : Fits t q.writes)
    (apart : program.protocol.Compatible p q) (hdone : q.stage.updates = []) :
    Codes (putAll t q.writes) p where
  relies := by
    have hrelies := h.relies
    unfold Relies at hrelies ⊢
    split at hrelies
    · exact hrelies
    · exact hrelies
    · exact ⟨(mem_committed_locked (r := .emailChallenge _) apart hrelies.2).mpr hrelies.1, hrelies.2⟩
    · exact hrelies.stable codes hfits apart hdone
    · exact hrelies.stable codes hfits apart hdone
    · trivial
  clean := h.clean
  gains row hrow id email hopens := by
    by_cases hown : ∃ write ∈ p.writes, Row.key write.new = (Row.emailChallenge row).key
    · refine (h.gains row ((mem_view_own apart hown).mp hrow) id email hopens).imp_left ?_
      rintro ⟨row', hid, hopens', hmem⟩
      refine ⟨row', hid, hopens', (mem_putAll_of_not_mem ?_).mpr hmem⟩
      rw [show (Row.emailChallenge row').key = (Row.emailChallenge row).key from congrArg (Prod.mk _) hid]
      exact Facts.not_own_of_other apart hown
    · have hnot : ∀ write ∈ p.writes, Row.key write.new ≠ (Row.emailChallenge row).key :=
        fun w hw hkey => hown ⟨w, hw, hkey⟩
      exact .inl ⟨row, rfl, hopens, (mem_putAll_of_not_mem hnot).mp hrow⟩
  settles a b email ha hb hid hat hmoved := by
    have hkey : (Row.subject b).key = (Row.subject a).key := congrArg (Prod.mk _) hid
    by_cases hown : ∃ write ∈ p.writes, Row.key write.new = (Row.subject b).key
    · have hlocked : (.row (Row.subject b).key, .exclusive) ∈ program.protocol.locks p := by
        obtain ⟨write, hwrite, hsame⟩ := hown
        exact hsame ▸ Program.mem_locks_row hwrite
      have ha := (mem_committed_locked (r := .subject a) apart (hkey ▸ hlocked)).mp ha
      refine (h.settles a b email ha ((mem_view_own apart hown).mp hb) hid hat hmoved).imp_right ?_
      intro hnone row hrow hopens
      rcases mem_view_cases apart hrow with hbefore | ⟨-, hother, hfree⟩
      · exact hnone row hbefore hopens
      · rcases codes.gains row hother a.id email hopens with ⟨row', hid', hopens', hmem⟩ | ⟨mode, hmode⟩
        · refine hnone row' ((mem_putAll_of_not_mem ?_).mpr hmem) hopens'
          rw [show (Row.emailChallenge row').key = (Row.emailChallenge row).key from
            congrArg (Prod.mk _) hid']
          exact hfree
        · -- a code for the person is issued under a lock on them
          rw [hkey] at hlocked
          obtain ⟨hshare, -⟩ := apart _ _ _ hlocked hmode
          cases hshare
    · have hnot : ∀ write ∈ p.writes, Row.key write.new ≠ (Row.subject b).key :=
        fun w hw hkey => hown ⟨w, hw, hkey⟩
      obtain rfl := Row.subject.inj (Table.eq_of_key ((mem_putAll_of_not_mem hnot).mp hb) ha hkey)
      exact absurd hat hmoved

theorem updates_of_done {stage : Stage} (h : program.done stage = true) : stage.updates = [] := by
  cases stage with
  | ending _ _ _ updates =>
    cases updates with
    | nil => rfl
    | cons _ _ => cases h
  | _ => rfl

variable {W : Type}

theorem codes_maintain :
    program.protocol.Maintains (fun (s : State W Db (Point Row Stage)) (_ : Action W Given) =>
        True ∧ program.protocol.Sound WellFormed Standing s)
      (fun _ => True) (fun db p => Codes db.rows p) := by
  constructor
  case idle =>
    intro db _
    refine ⟨rfl, fun _ write hwrite => absurd hwrite List.not_mem_nil,
      fun row hrow _ _ hopens => .inl ⟨row, rfl, hopens, hrow⟩, ?_⟩
    intro a b email ha hb hid hat hmoved
    obtain rfl := Row.subject.inj (Table.eq_of_key hb ha (congrArg (Prod.mk _) hid))
    exact absurd hat hmoved
  case statement =>
    intro s w input q sound allowed ran
    obtain ⟨changes, writes, hran, hrecord, hq⟩ := Program.statement_ok ran
    rw [hq]
    exact ((allowed.2.relies w).1.2.ran hran hrecord).codes_kept (sound.relies w)
  case commit =>
    intro s w f sound _ done
    trivial
  case stable =>
    intro s w v f sound allowed hne done
    obtain ⟨hdone, rfl⟩ := Program.effect_some done
    exact (sound.relies v).stable (sound.relies w) (allowed.2.relies w).1.1.fits
      (sound.compatible v w hne) (updates_of_done hdone)
  case outside =>
    intro s input db sound moved
    cases moved
    exact ⟨sound.committed, sound.relies⟩

end Runs

end MpcRegistry.Accounts
