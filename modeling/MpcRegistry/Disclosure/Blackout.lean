import MpcRegistry.Disclosure.Restrictions

/-!
# A blackout is enforced

What every run of transitions and guarded actions keeps. Both take the lock of the
project before they read its restrictions and hold it until they commit, so what a
guarded action has checked is still so when it commits.
-/
namespace MpcRegistry.Disclosure
open Library ReadCommitted

/-! ## What a statement can do -/

/-- The restriction keeps the action from being taken. -/
def Restriction.Covers (restriction : Restriction) (action : GuardedAction) : Prop :=
  restriction.state = .active ∧ restriction.tenantId = action.tenantId ∧
    restriction.projectId = action.projectId ∧
    (action.projectId ∈ restriction.subjectScope ∨
      ∃ actor, action.actorSubjectId = some actor ∧ actor ∈ restriction.subjectScope) ∧
    action.action ∈ restriction.restrictedActionTypes

theorem GuardedAction.mem_subjects {action : GuardedAction} {subject : Uuid} :
    subject ∈ action.subjects ↔
      subject = action.projectId ∨ action.actorSubjectId = some subject := by
  unfold subjects
  cases action.actorSubjectId with
  | none => simp
  | some actor => simp [eq_comm]

theorem Db.mem_activeRestrictions {db : Db} {tenantId projectId : Uuid} {row : Restriction} :
    row ∈ db.activeRestrictions tenantId projectId ↔ row ∈ db.restrictions ∧
      row.tenantId = tenantId ∧ row.projectId = projectId ∧ row.state = .active := by
  simp [activeRestrictions, List.mem_insertionSort, Table.mem_rows]

theorem Db.restricting_eq_none {db : Db} {action : GuardedAction} :
    db.restricting action = none ↔ ∀ row ∈ db.restrictions, ¬ row.Covers action := by
  unfold restricting
  constructor
  · rintro hnone row hrow ⟨hactive, htenant, hproject, hscope, htypes⟩
    have hlisted := mem_activeRestrictions.mpr ⟨hrow, htenant, hproject, hactive⟩
    have hsubject : ∃ subject ∈ action.subjects, subject ∈ row.subjectScope := by
      rcases hscope with hscope | ⟨actor, hactor, hscope⟩
      · exact ⟨_, GuardedAction.mem_subjects.mpr (.inl rfl), hscope⟩
      · exact ⟨actor, GuardedAction.mem_subjects.mpr (.inr hactor), hscope⟩
    obtain ⟨subject, hmem, hscope⟩ := hsubject
    have hout := List.find?_eq_none.mp (List.findSome?_eq_none_iff.mp hnone subject hmem) row hlisted
    simp [hactive, hscope, htypes] at hout
  · intro hfree
    refine List.findSome?_eq_none_iff.mpr fun subject hmem => List.find?_eq_none.mpr fun row hlisted => ?_
    obtain ⟨hrow, htenant, hproject, hactive⟩ := mem_activeRestrictions.mp hlisted
    intro hholds
    simp only [Bool.and_eq_true, List.contains_iff_mem] at hholds
    refine hfree row hrow ⟨hactive, htenant, hproject, ?_, hholds.2⟩
    rcases GuardedAction.mem_subjects.mp hmem with rfl | hactor
    · exact .inl hholds.1.2
    · exact .inr ⟨subject, hactor, hholds.1.2⟩

/-- The check passes exactly when no restriction covers the action. -/
theorem Db.assertActionNotRestricted_ok {db : Db} {action : GuardedAction} {u : Unit} :
    db.assertActionNotRestricted action = .ok u ↔
      ∀ row ∈ db.restrictions, ¬ row.Covers action := by
  rw [← restricting_eq_none, assertActionNotRestricted]
  split
  · next hnone => simp [hnone]
  · next row hsome => simp [hsome]

theorem Db.restrictionById_eq_some {db : Db} {tenantId id : Uuid} {row : Restriction}
    (h : db.restrictionById tenantId id = some row) :
    row ∈ db.restrictions ∧ row.id = id ∧ row.tenantId = tenantId := by
  obtain ⟨hfound, htenant⟩ := Option.filter_eq_some_iff.mp h
  obtain ⟨hmem, hid⟩ := Table.lookup_eq_some.mp hfound
  exact ⟨hmem, hid, by simpa using htenant⟩

/-- A replacement that was named is another restriction of the project. -/
theorem Db.resolveReplacement_ok {db : Db} {request : TransitionRequest} {current : Restriction}
    {supersededById : Option Uuid} (h : db.resolveReplacement request current = .ok supersededById)
    {id : Uuid} (hid : supersededById = some id) :
    ∃ replacement ∈ db.restrictions, replacement.id = id ∧ id ≠ current.id ∧
      replacement.projectId = current.projectId := by
  unfold resolveReplacement at h
  split at h
  · split at h
    · cases h
    · next hfound =>
      obtain ⟨hvalid, h⟩ := Outcome.guard_ok.mp h
      cases h
      cases hid
      obtain ⟨hmem, hkey, -⟩ := restrictionById_eq_some hfound
      exact ⟨_, hmem, hkey, fun heq => hvalid (.inr heq), not_not.mp fun hne => hvalid (.inl hne)⟩
  · cases h
    cases hid

/-- Everything a statement can do, with what it found. -/
inductive Point.Moves (db : Db) (given : Given) : Point → Point → Prop where
  | creating (request : CreateRequest) : Moves db given .idle (.creating request)
  | begun (request : TransitionRequest) : Moves db given .idle (.begun request db.now)
  | acting (action : GuardedAction) : Moves db given .idle (.acting action)
  | inserted (request : CreateRequest) (fresh : ∀ row ∈ db.restrictions, row.id ≠ given.uuid) :
      Moves db given (.creating request) (.inserted request (request.row given.uuid))
  | createRecorded (request : CreateRequest) (row : Restriction)
      (fresh : ∀ event ∈ db.events, event.id ≠ given.uuid) :
      Moves db given (.inserted request row) (.createRecorded row
        (recordEvent given.uuid row .created request.actor request.reason))
  | targetRead (request : TransitionRequest) (startedAt : Nat) (target : Restriction)
      (found : db.restrictionById request.tenantId request.restrictionId = some target) :
      Moves db given (.begun request startedAt) (.targetRead request startedAt target.projectId)
  | projectLocked (request : TransitionRequest) (startedAt : Nat) (projectId : Uuid) :
      Moves db given (.targetRead request startedAt projectId)
        (.projectLocked request startedAt projectId)
  | rowLocked (request : TransitionRequest) (startedAt : Nat) (projectId : Uuid)
      (current : Restriction)
      (found : db.restrictionById request.tenantId request.restrictionId = some current)
      (allowed : canTransition current.state request.kind.target = true) :
      Moves db given (.projectLocked request startedAt projectId)
        (.rowLocked request startedAt projectId current)
  | replacementRead (request : TransitionRequest) (startedAt : Nat) (projectId : Uuid)
      (current : Restriction) (supersededById : Option Uuid)
      (resolved : db.resolveReplacement request current = .ok supersededById) :
      Moves db given (.rowLocked request startedAt projectId current)
        (.replacementRead request startedAt projectId current supersededById)
  | updated (transition : Transition) (wellFormed : transition.row.wellFormed = true) :
      Moves db given
        (.replacementRead transition.request transition.startedAt transition.projectId
          transition.current transition.supersededById)
        (.updated transition)
  | recorded (transition : Transition) (fresh : ∀ event ∈ db.events, event.id ≠ given.uuid) :
      Moves db given (.updated transition) (.recorded transition (recordEvent given.uuid
        transition.row transition.request.kind.eventKind transition.request.actor
        transition.request.reason))
  | actionLocked (action : GuardedAction) : Moves db given (.acting action) (.actionLocked action)
  | actionChecked (action : GuardedAction) (free : ∀ row ∈ db.restrictions, ¬ row.Covers action) :
      Moves db given (.actionLocked action) (.actionChecked action)

theorem Point.moves_of_next {db : Db} {given : Given} {p q : Point} (h : p.next db given = .ok q) :
    Moves db given p q := by
  cases p with
  | idle =>
    simp only [next] at h
    split at h <;> cases h
    · exact .creating _
    · exact .begun _
    · exact .acting _
  | creating request =>
    obtain ⟨hfresh, h⟩ := Outcome.guard_ok.mp h
    cases h
    exact .inserted request fun row hrow hid => hfresh ⟨row, hrow, hid⟩
  | inserted request row =>
    obtain ⟨hfresh, h⟩ := Outcome.guard_ok.mp h
    cases h
    exact .createRecorded request row fun event hevent hid => hfresh ⟨event, hevent, hid⟩
  | begun request startedAt =>
    simp only [next] at h
    split at h
    · cases h
    · next target hfound =>
      cases h
      exact .targetRead request startedAt target hfound
  | targetRead request startedAt projectId =>
    cases h
    exact .projectLocked request startedAt projectId
  | projectLocked request startedAt projectId =>
    simp only [next] at h
    split at h
    · cases h
    · next current hfound =>
      obtain ⟨-, h⟩ := Outcome.guard_ok.mp h
      obtain ⟨hallowed, h⟩ := Outcome.guard_ok.mp h
      cases h
      exact .rowLocked request startedAt projectId current hfound (by simpa using hallowed)
  | rowLocked request startedAt projectId current =>
    obtain ⟨supersededById, hresolved, rfl⟩ := Outcome.map_ok.mp h
    exact .replacementRead request startedAt projectId current supersededById hresolved
  | replacementRead request startedAt projectId current supersededById =>
    obtain ⟨hvalid, h⟩ := Outcome.guard_ok.mp h
    cases h
    exact .updated ⟨request, startedAt, projectId, current, supersededById, given.time⟩
      (by simpa using fun hform => hvalid (.inr hform))
  | updated transition =>
    obtain ⟨hfresh, h⟩ := Outcome.guard_ok.mp h
    cases h
    exact .recorded transition fun event hevent hid => hfresh ⟨event, hevent, hid⟩
  | acting action =>
    cases h
    exact .actionLocked action
  | actionLocked action =>
    obtain ⟨u, hchecked, rfl⟩ := Outcome.map_ok.mp h
    exact .actionChecked action (Db.assertActionNotRestricted_ok.mp hchecked)
  | createRecorded | recorded | actionChecked => cases h

/-- Everything a commit can be. -/
inductive Commits : Point → (Db → Db) → Prop where
  | create (row : Restriction) (event : RestrictionEvent) :
      Commits (.createRecorded row event) fun db =>
        { db with
          restrictions := db.restrictions.insertIfAbsent row
          events := db.events.insertIfAbsent event }
  | transition (transition : Transition) (event : RestrictionEvent) :
      Commits (.recorded transition event) fun db =>
        { db with
          restrictions := db.restrictions.update (·.id = transition.current.id) transition.change
            fun _ => rfl
          events := db.events.insertIfAbsent event }
  | act (action : GuardedAction) :
      Commits (.actionChecked action) fun db => { db with performed := db.performed ++ [action] }

theorem commits_of_effect {p : Point} {f : Db → Db} (h : p.effect = some f) : Commits p f := by
  cases p <;> cases h
  · exact .create _ _
  · exact .transition _ _
  · exact .act _

/-! ## What a request relies on -/

/-- The row that a transition found, still as it was read. -/
structure Chosen (restrictions : Table Restriction.id) (request : TransitionRequest)
    (projectId : Uuid) (current : Restriction) : Prop where
  row : current ∈ restrictions
  tenant : current.tenantId = request.tenantId
  project : current.projectId = projectId
  allowed : canTransition current.state request.kind.target = true

/-- The replacement is another restriction of the project. -/
def Replaces (restrictions : Table Restriction.id) (current : Restriction) (id : Uuid) : Prop :=
  ∃ replacement ∈ restrictions, replacement.id = id ∧ id ≠ current.id ∧
    replacement.projectId = current.projectId

/-- The restriction that a transition is about is one of the project. -/
def Targets (db : Db) (request : TransitionRequest) (projectId : Uuid) : Prop :=
  ∃ row ∈ db.restrictions, row.id = request.restrictionId ∧ row.projectId = projectId

/-- A transition whose row may be written. -/
structure Transition.Ready (restrictions : Table Restriction.id) (transition : Transition) :
    Prop where
  chosen : Chosen restrictions transition.request transition.projectId transition.current
  replaces : ∀ id, transition.supersededById = some id → Replaces restrictions transition.current id
  wellFormed : transition.row.wellFormed = true

/-- The event of a transition, under an id of its own. -/
structure Transition.Reports (events : Table RestrictionEvent.id) (transition : Transition)
    (event : RestrictionEvent) : Prop where
  fresh : ∀ other ∈ events, other.id ≠ event.id
  restriction : event.restrictionId = transition.current.id
  kind : event.eventKind = transition.request.kind.eventKind

def Point.Relies (db : Db) : Point → Prop
  | inserted _ row => row.state = .draft ∧ ∀ other ∈ db.restrictions, other.id ≠ row.id
  | createRecorded row _ => row.state = .draft ∧ ∀ other ∈ db.restrictions, other.id ≠ row.id
  | targetRead request _ projectId => Targets db request projectId
  | projectLocked request _ projectId => Targets db request projectId
  | rowLocked request _ projectId current => Chosen db.restrictions request projectId current
  | replacementRead request _ projectId current supersededById =>
    Chosen db.restrictions request projectId current ∧
      ∀ id, supersededById = some id → Replaces db.restrictions current id
  | updated transition => transition.Ready db.restrictions
  | recorded transition event =>
    transition.Ready db.restrictions ∧ transition.Reports db.events event
  | actionChecked action => ∀ row ∈ db.restrictions, ¬ row.Covers action
  | _ => True

/-- A released restriction has its record and an active one a time of effect. -/
def WellFormed (db : Db) : Prop := ∀ row ∈ db.restrictions, row.wellFormed = true

theorem Targets.chosen {db : Db} {request : TransitionRequest} {projectId : Uuid}
    {current : Restriction} (h : Targets db request projectId)
    (found : db.restrictionById request.tenantId request.restrictionId = some current)
    (allowed : canTransition current.state request.kind.target = true) :
    Chosen db.restrictions request projectId current := by
  obtain ⟨hrow, hid, htenant⟩ := Db.restrictionById_eq_some found
  obtain ⟨row, hmem, hkey, hproject⟩ := h
  obtain rfl : row = current := Table.eq_of_key hmem hrow (hkey.trans hid.symm)
  exact ⟨hrow, htenant, hproject, allowed⟩

/-- What a request relies on after its own statement. -/
theorem Point.Moves.relies {db : Db} {given : Given} {p q : Point} (h : Moves db given p q)
    (before : p.Relies db) : q.Relies db := by
  cases h with
  | inserted request fresh => exact ⟨rfl, fresh⟩
  | createRecorded request row fresh => exact before
  | targetRead request startedAt target found =>
    obtain ⟨hrow, hid, -⟩ := Db.restrictionById_eq_some found
    exact ⟨target, hrow, hid, rfl⟩
  | projectLocked request startedAt projectId => exact before
  | rowLocked request startedAt projectId current found allowed => exact before.chosen found allowed
  | replacementRead request startedAt projectId current supersededById resolved =>
    exact ⟨before, fun id hid => Db.resolveReplacement_ok resolved hid⟩
  | updated transition wellFormed => exact ⟨before.1, before.2, wellFormed⟩
  | recorded transition fresh => exact ⟨before, fresh, rfl, rfl⟩
  | actionChecked action free => exact free
  | _ => trivial

/-! ## What a commit does to the restrictions -/

/-- What does not change of a restriction. -/
structure Restriction.SameScope (row other : Restriction) : Prop where
  id : row.id = other.id
  tenantId : row.tenantId = other.tenantId
  projectId : row.projectId = other.projectId
  subjectScope : row.subjectScope = other.subjectScope
  restrictedActionTypes : row.restrictedActionTypes = other.restrictedActionTypes

theorem Restriction.SameScope.refl (row : Restriction) : row.SameScope row :=
  ⟨rfl, rfl, rfl, rfl, rfl⟩

theorem Transition.row_sameScope (transition : Transition) :
    transition.row.SameScope transition.current := ⟨rfl, rfl, rfl, rfl, rfl⟩

theorem Transition.change_id (transition : Transition) (row : Restriction) :
    (transition.change row).id = row.id := rfl

@[simp] theorem Transition.row_state (transition : Transition) :
    transition.row.state = transition.request.kind.target := rfl

/-- Where a row of the new state comes from. -/
inductive RowAfter (db : Db) : Point → Restriction → Prop where
  | same (p : Point) (row : Restriction) (old : row ∈ db.restrictions) : RowAfter db p row
  | created (row : Restriction) (event : RestrictionEvent) :
      RowAfter db (.createRecorded row event) row
  | changed (transition : Transition) (event : RestrictionEvent) :
      RowAfter db (.recorded transition event) transition.row

theorem Commits.rowAfter {db : Db} {p : Point} {f : Db → Db} (h : Commits p f)
    (relies : p.Relies db) {row : Restriction} (hrow : row ∈ (f db).restrictions) :
    RowAfter db p row := by
  cases h with
  | create new event =>
    rcases Table.mem_insertIfAbsent.mp hrow with hold | ⟨rfl, -⟩
    · exact .same _ row hold
    · exact .created row event
  | transition transition event =>
    obtain ⟨old, hold, -, rfl | ⟨hselected, rfl⟩⟩ := Table.exists_of_mem_update transition.change_id hrow
    · exact .same _ row hold
    · obtain rfl : old = transition.current :=
        Table.eq_of_key hold relies.1.chosen.row (of_decide_eq_true hselected)
      exact .changed transition event
  | act action => exact .same _ row hrow

/-- What becomes of a row of the old state. -/
inductive RowBefore (db : Db) : Point → Restriction → Restriction → Prop where
  | same (p : Point) (row : Restriction) : RowBefore db p row row
  | changed (transition : Transition) (event : RestrictionEvent) :
      RowBefore db (.recorded transition event) transition.current transition.row

theorem Commits.rowBefore {db : Db} {p : Point} {f : Db → Db} (h : Commits p f)
    (relies : p.Relies db) {row : Restriction} (hrow : row ∈ db.restrictions) :
    ∃ row' ∈ (f db).restrictions, RowBefore db p row row' := by
  cases h with
  | create new event => exact ⟨row, Table.mem_insertIfAbsent_of_mem hrow, .same _ row⟩
  | transition transition event =>
    refine ⟨_, Table.mem_update_of_mem transition.change_id hrow, ?_⟩
    split
    · next hselected =>
      obtain rfl : row = transition.current :=
        Table.eq_of_key hrow relies.1.chosen.row (of_decide_eq_true hselected)
      exact .changed transition event
    · exact .same _ row
  | act action => exact ⟨row, hrow, .same _ row⟩

theorem RowBefore.sameScope {db : Db} {p : Point} {row row' : Restriction}
    (h : RowBefore db p row row') : row'.SameScope row := by
  cases h with
  | same => exact .refl row
  | changed transition event => exact transition.row_sameScope

/-- Unless the committing request has locked it, a row stays as it is. -/
theorem Commits.mem_of_unlocked {db : Db} {p : Point} {f : Db → Db} (h : Commits p f)
    (relies : p.Relies db) {row : Restriction} (hrow : row ∈ db.restrictions)
    (unlocked : (.restriction row.id, .exclusive) ∉ p.locks) : row ∈ (f db).restrictions := by
  obtain ⟨row', hrow', hafter⟩ := h.rowBefore relies hrow
  cases hafter with
  | same => exact hrow'
  | changed transition event => exact absurd (by simp [Point.locks, Transition.locks]) unlocked

/-- Nor does a commit use an id that another request has locked. -/
theorem Commits.fresh_of_unlocked {db : Db} {p : Point} {f : Db → Db} (h : Commits p f)
    (relies : p.Relies db) {id : Uuid} (fresh : ∀ row ∈ db.restrictions, row.id ≠ id)
    (unlocked : (.restriction id, .exclusive) ∉ p.locks) :
    ∀ row ∈ (f db).restrictions, row.id ≠ id := by
  intro row hrow hid
  cases h.rowAfter relies hrow with
  | same _ _ old => exact fresh row old hid
  | created _ event => exact unlocked (by simp [Point.locks, hid])
  | changed transition event => exact fresh _ relies.1.chosen.row hid

theorem Commits.event_fresh_of_unlocked {db : Db} {p : Point} {f : Db → Db} (h : Commits p f)
    {id : Uuid} (fresh : ∀ event ∈ db.events, event.id ≠ id)
    (unlocked : (.event id, .exclusive) ∉ p.locks) : ∀ event ∈ (f db).events, event.id ≠ id := by
  intro event hevent hid
  cases h with
  | create row new =>
    rcases Table.mem_insertIfAbsent.mp hevent with hold | ⟨rfl, -⟩
    · exact fresh event hold hid
    · exact unlocked (by simp [Point.locks, hid])
  | transition transition new =>
    rcases Table.mem_insertIfAbsent.mp hevent with hold | ⟨rfl, -⟩
    · exact fresh event hold hid
    · exact unlocked (by simp [Point.locks, hid])
  | act action => exact fresh event hevent hid

/-- No restriction starts to cover an action whose project another request has locked. -/
theorem Commits.free_of_unlocked {db : Db} {p : Point} {f : Db → Db} (h : Commits p f)
    (relies : p.Relies db) {action : GuardedAction}
    (free : ∀ row ∈ db.restrictions, ¬ row.Covers action)
    (unlocked : (.project action.tenantId action.projectId, .exclusive) ∉ p.locks) :
    ∀ row ∈ (f db).restrictions, ¬ row.Covers action := by
  intro row hrow hcovers
  cases h.rowAfter relies hrow with
  | same _ _ old => exact free row old hcovers
  | created _ event =>
    have hactive := hcovers.1
    rw [relies.1] at hactive
    cases hactive
  | changed transition event =>
    have hchosen := relies.1.chosen
    have htenant : transition.request.tenantId = action.tenantId := hchosen.tenant.symm.trans hcovers.2.1
    have hproject : transition.projectId = action.projectId :=
      hchosen.project.symm.trans hcovers.2.2.1
    exact unlocked (by simp [Point.locks, Transition.locks, htenant, hproject])

theorem Replaces.commit {db : Db} {p : Point} {f : Db → Db} {current : Restriction} {id : Uuid}
    (h : Replaces db.restrictions current id) (commits : Commits p f) (relies : p.Relies db) :
    Replaces (f db).restrictions current id := by
  obtain ⟨replacement, hmem, hid, hne, hproject⟩ := h
  obtain ⟨row', hrow', hafter⟩ := commits.rowBefore relies hmem
  have hscope := hafter.sameScope
  exact ⟨row', hrow', hscope.id.trans hid, hne, hscope.projectId.trans hproject⟩

theorem Targets.commit {db : Db} {p : Point} {f : Db → Db} {request : TransitionRequest}
    {projectId : Uuid} (h : Targets db request projectId) (commits : Commits p f)
    (relies : p.Relies db) : Targets (f db) request projectId := by
  obtain ⟨row, hmem, hid, hproject⟩ := h
  obtain ⟨row', hrow', hafter⟩ := commits.rowBefore relies hmem
  have hscope := hafter.sameScope
  exact ⟨row', hrow', hscope.id.trans hid, hscope.projectId.trans hproject⟩

theorem Transition.Ready.commit {db : Db} {p : Point} {f : Db → Db} {transition : Transition}
    (h : transition.Ready db.restrictions) (commits : Commits p f) (relies : p.Relies db)
    (unlocked : (.restriction transition.current.id, .exclusive) ∉ p.locks) :
    transition.Ready (f db).restrictions where
  chosen := { h.chosen with row := commits.mem_of_unlocked relies h.chosen.row unlocked }
  replaces id hid := (h.replaces id hid).commit commits relies
  wellFormed := h.wellFormed

/-- What another request relies on survives a commit: its locks are in the way of the rest. -/
theorem Point.Relies.commit {db : Db} {p q : Point} {f : Db → Db} (h : q.Relies db)
    (commits : Commits p f) (relies : p.Relies db) (apart : disclosure.Compatible q p) :
    q.Relies (f db) := by
  have unlocked : ∀ {key : Lock}, (key, .exclusive) ∈ q.locks → (key, .exclusive) ∉ p.locks :=
    fun hmem => apart.not_both hmem
  cases q with
  | inserted request row =>
    exact ⟨h.1, commits.fresh_of_unlocked relies h.2 (unlocked (by simp [locks]))⟩
  | createRecorded row event =>
    exact ⟨h.1, commits.fresh_of_unlocked relies h.2 (unlocked (by simp [locks]))⟩
  | targetRead request startedAt projectId => exact Targets.commit h commits relies
  | projectLocked request startedAt projectId => exact Targets.commit h commits relies
  | rowLocked request startedAt projectId current =>
    exact { h with row := commits.mem_of_unlocked relies h.row (unlocked (by simp [locks])) }
  | replacementRead request startedAt projectId current supersededById =>
    refine ⟨{ h.1 with row := ?_ }, fun id hid => (h.2 id hid).commit commits relies⟩
    exact commits.mem_of_unlocked relies h.1.row (unlocked (by simp [locks]))
  | updated transition =>
    exact Transition.Ready.commit h commits relies (unlocked (by simp [locks, Transition.locks]))
  | recorded transition event =>
    refine ⟨h.1.commit commits relies (unlocked (by simp [locks, Transition.locks])), ?_⟩
    exact { h.2 with
      fresh := commits.event_fresh_of_unlocked h.2.fresh (unlocked (by simp [locks])) }
  | actionChecked action => exact commits.free_of_unlocked relies h (unlocked (by simp [locks]))
  | _ => trivial

theorem Commits.wellFormed {db : Db} {p : Point} {f : Db → Db} (h : Commits p f)
    (relies : p.Relies db) (wellFormed : WellFormed db) : WellFormed (f db) := by
  intro row hrow
  cases h.rowAfter relies hrow with
  | same _ _ old => exact wellFormed row old
  | created _ event => simp [Restriction.wellFormed, relies.1]
  | changed transition event => exact relies.1.wellFormed

/-- Nothing that is relied on speaks of the clock. -/
theorem Point.Relies.tick {db : Db} {p : Point} (h : p.Relies db) (now : Nat) :
    p.Relies { db with now } := by
  cases p with
  | _ => exact h

/-! ## Runs -/

section Runs

variable {W : Type} {s t : State W Db Point}

theorem disclosure_maintains : disclosure.Maintains (W := W) (fun _ _ => True) WellFormed
    fun db p => p.Relies db := by
  constructor
  case idle => exact fun _ _ => trivial
  case statement =>
    intro s w given q sound _ ran
    exact (Point.moves_of_next ran).relies (sound.relies w)
  case commit =>
    intro s w f sound _ done
    exact (commits_of_effect done).wellFormed (sound.relies w) sound.committed
  case stable =>
    intro s w v f sound _ hne done
    exact (sound.relies v).commit (commits_of_effect done) (sound.relies w)
      (sound.compatible v w hne)
  case outside =>
    intro s given db sound moved
    cases moved
    exact ⟨sound.committed, fun w => (sound.relies w).tick _⟩

/-- The release of a restriction, with its record and its event. -/
structure Released (s t : State W Db Point) (row row' : Restriction) : Prop where
  state : row'.state = .released
  record : row'.releaseRecord.isSome = true
  releasedBy : row'.releasedBy.isSome = true
  releasedAt : row'.releasedAt.isSome = true
  event : ∃ event ∈ t.committed.events, event ∉ s.committed.events ∧
    event.restrictionId = row.id ∧ event.eventKind = .released

/-- The supersession of a restriction, with its event; a replacement that it names
is another restriction of the project. -/
structure Superseded (s t : State W Db Point) (row row' : Restriction) : Prop where
  state : row'.state = .superseded
  replaces : ∀ id, row'.supersededById = some id → Replaces t.committed.restrictions row id
  event : ∃ event ∈ t.committed.events, event ∉ s.committed.events ∧
    event.restrictionId = row.id ∧ event.eventKind = .superseded

/-- The step commits the action under the lock of its project, and no restriction
in force covers it. -/
structure CommitsUncovered (s : State W Db Point) (a : Action W Given) (t : State W Db Point)
    (action : GuardedAction) : Prop where
  performed : t.committed.performed = s.committed.performed ++ [action]
  locked : ∃ w, a = .commit w ∧
    (.project action.tenantId action.projectId, .exclusive) ∈ disclosure.locks (s.point w)
  free : ∀ row ∈ s.committed.restrictions, ¬ row.Covers action

/-- What a step may do to guarded actions and to restrictions in force. -/
structure Enforces (s : State W Db Point) (a : Action W Given) (t : State W Db Point) : Prop where
  actions : t.committed.performed = s.committed.performed ∨ ∃ action, CommitsUncovered s a t action
  restrictions : ∀ row ∈ s.committed.restrictions, row.state = .active →
    ∃ row' ∈ t.committed.restrictions, row'.SameScope row ∧
      (row'.state = .active ∨ Released s t row row' ∨ Superseded s t row row')

theorem enforces_of_same {a : Action W Given} (hactions : t.committed.performed = s.committed.performed)
    (hrows : t.committed.restrictions = s.committed.restrictions) : Enforces s a t where
  actions := .inl hactions
  restrictions row hrow hactive := ⟨row, by rw [hrows]; exact hrow, .refl row, .inl hactive⟩

theorem Commits.actions {w : W} {f : Db → Db} (h : Commits (s.point w) f)
    (relies : (s.point w).Relies s.committed) (hnew : t.committed = f s.committed) :
    t.committed.performed = s.committed.performed ∨
      ∃ action, CommitsUncovered s (.commit w) t action := by
  generalize hpoint : s.point w = p at h relies
  cases h with
  | create row event => exact .inl (by rw [hnew])
  | transition transition event => exact .inl (by rw [hnew])
  | act action =>
    refine .inr ⟨action, by rw [hnew], ⟨w, rfl, ?_⟩, relies⟩
    rw [hpoint]
    exact List.mem_singleton.mpr rfl

/-- A transition that has been recorded lifts a restriction by a release or by a supersession. -/
theorem Commits.lifts {w : W} {f : Db → Db} (h : Commits (s.point w) f)
    (relies : (s.point w).Relies s.committed) (hnew : t.committed = f s.committed)
    {row : Restriction} (hrow : row ∈ s.committed.restrictions) (hactive : row.state = .active) :
    ∃ row' ∈ t.committed.restrictions, row'.SameScope row ∧
      (row'.state = .active ∨ Released s t row row' ∨ Superseded s t row row') := by
  obtain ⟨row', hrow', hafter⟩ := h.rowBefore relies hrow
  refine ⟨row', hnew ▸ hrow', hafter.sameScope, ?_⟩
  generalize s.point w = p at h relies hafter
  cases hafter with
  | same => exact .inl hactive
  | changed transition event =>
    obtain ⟨ready, reports⟩ := relies
    cases h
    have hevent : event ∈ t.committed.events ∧ event ∉ s.committed.events := by
      rw [hnew]
      exact ⟨Table.mem_insertIfAbsent.mpr (.inr ⟨rfl, reports.fresh⟩),
        fun hold => reports.fresh event hold rfl⟩
    cases hkind : transition.request.kind with
    | activate => exact .inl (by rw [Transition.row_state, hkind]; rfl)
    | release =>
      have hstate : transition.row.state = .released := by rw [Transition.row_state, hkind]; rfl
      have hform := ready.wellFormed
      simp only [Restriction.wellFormed, hstate] at hform
      refine .inr (.inl ⟨hstate, ?_, ?_, ?_, event, hevent.1, hevent.2, reports.restriction, ?_⟩)
      · simp_all
      · simp_all
      · simp_all
      · rw [reports.kind, hkind]
        rfl
    | supersede =>
      have hstate : transition.row.state = .superseded := by rw [Transition.row_state, hkind]; rfl
      refine .inr (.inr ⟨hstate, fun id hid => ?_, event, hevent.1, hevent.2,
        reports.restriction, ?_⟩)
      · have hreplacement : transition.supersededById = some id := by
          simpa [Transition.row, Transition.change, TransitionRequest.apply, hkind] using hid
        rw [hnew]
        exact (ready.replaces id hreplacement).commit (.transition transition event) ⟨ready, reports⟩
      · rw [reports.kind, hkind]
        rfl

end Runs

/-! ## Two runs -/

/-- One request, given as many statements as it takes; each is given the id. -/
def script (request : Request) (steps : Nat) (uuid : Uuid) : List Given :=
  List.replicate steps ⟨request, uuid, 0⟩

def blackout (projectId : Uuid) : CreateRequest where
  tenantId := 1
  projectId
  subjectScope := [projectId]
  restrictedActionTypes := [units "registry.publish"]
  materialInfoRef := units "vault://material"
  reason := units "market sensitive"
  legalBasis := units "MAR"
  authority := units "Disclosure committee"
  expectedNextUpdateAt := none
  actor := 3

def moveRequest (kind : TransitionKind) (restrictionId : Uuid) (expectedVersion : Nat)
    (supersededById : Option Uuid) : TransitionRequest where
  tenantId := 1
  restrictionId
  kind
  expectedVersion
  reason := units "scope corrected"
  disclosureReference := units "DISC-1"
  legalCondition := units "published"
  supersededById
  actor := 3

/-- Restriction 1 of project 7 is in force; restriction 2 is a draft. -/
def restricted : List (List Given) := [
  script (.create (blackout 7)) 3 1,
  script (.transition (moveRequest .activate 1 1 none)) 7 3,
  script (.create (blackout 7)) 3 2]

def superseded : List (List Given) := [
  script (.transition (moveRequest .supersede 1 2 (some 2))) 7 4]

def publishElsewhere : GuardedAction := ⟨1, 8, units "registry.publish", some 5⟩

def askToPublish : Given := ⟨.act publishElsewhere, 0, 0⟩

end MpcRegistry.Disclosure
