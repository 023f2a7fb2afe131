import MpcRegistry.Lifecycle.Transitions

/-!
# No offering without its conditions

What every run of lifecycle transitions and publications keeps, with facts and gate
decisions recorded at any time. A transition locks the key of its project, which every
new fact and decision of the project refers to, so what its guard has read is still so
when it commits.
-/
namespace MpcRegistry.Lifecycle
open Library ReadCommitted AtLifecycleState

/-! ## The conditions of an offering -/

/-- A decision on the offering gate of the project. -/
def GateDecision.OnOffering (row : GateDecision) (projectId : Uuid) : Prop :=
  row.projectId = projectId ∧ row.gateId = offeringGateId

/-- All seven preconditions are confirmed with evidence, and of the decisions on the
offering gate none is later than one that says go. -/
structure Db.OfferingReady (db : Db) (projectId : Uuid) : Prop where
  confirmed : ∀ key ∈ offeringKeys, ∃ fact ∈ db.facts, fact.projectId = projectId ∧
    fact.factKey = key ∧ fact.status = .confirmed ∧ fact.evidenceRef.isSome = true
  go : ∃ row ∈ db.decisions, row.OnOffering projectId ∧ row.decision = .go ∧
    ∀ other ∈ db.decisions, other.OnOffering projectId →
      toLex (other.signedAt, other.createdAt) ≤ toLex (row.signedAt, row.createdAt)

/-- The decisions of a project are of its tenant. -/
def Db.DecisionsOwned (db : Db) : Prop :=
  ∀ row ∈ db.decisions, ∃ project ∈ db.projects, project.id = row.projectId ∧
    project.tenantId = row.tenantId

theorem latestOf_eq_some {rows : List GateDecision} {row : GateDecision}
    (h : latestOf rows = some row) : row ∈ rows ∧ ∀ other ∈ rows,
      toLex (other.signedAt, other.createdAt) ≤ toLex (row.signedAt, row.createdAt) := by
  refine ⟨?_, fun other hother => ?_⟩
  · have hmem := List.mem_of_head? h
    rwa [List.mem_insertionSort] at hmem
  · exact le_of_head?_descending (fun row : GateDecision => toLex (row.signedAt, row.createdAt)) h hother

section Conditions

variable {db : Db} {project : Project}

/-- The route's query and the trigger's read the same decisions. -/
theorem Db.DecisionsOwned.filter_eq (owned : db.DecisionsOwned) (hproject : project ∈ db.projects) :
    (db.decisions.filter fun row => row.tenantId = project.tenantId ∧ row.projectId = project.id ∧
      row.gateId = offeringGateId) =
    db.decisions.filter fun row => row.projectId = project.id ∧ row.gateId = offeringGateId := by
  refine List.filter_congr fun row hrow => ?_
  obtain ⟨owner, howner, hid, htenant⟩ := owned row hrow
  by_cases hsame : row.projectId = project.id
  · obtain rfl := Table.eq_of_key howner hproject (hid.trans hsame)
    simp [htenant]
  · simp [hsame]

theorem Db.confirmed_of_activatable {tenantId projectId : Uuid}
    (h : checkOfferingGate (db.preconditionStatuses tenantId projectId) = .activatable) {key : Text}
    (hkey : key ∈ offeringKeys) : ∃ fact ∈ db.facts, fact.projectId = projectId ∧
      fact.factKey = key ∧ fact.status = .confirmed ∧ fact.evidenceRef.isSome = true := by
  obtain ⟨status, hstatus, hkey, hsatisfied, hevidence⟩ := checkOfferingGate_activatable h hkey
  obtain ⟨fact, hfact, rfl⟩ := List.mem_map.mp hstatus
  rw [List.mem_filter, decide_eq_true_eq] at hfact
  exact ⟨fact, hfact.1, hfact.2.2, hkey, of_decide_eq_true hsatisfied, hevidence⟩

/-- Seven confirmed preconditions are seven different keys. -/
theorem Db.le_evidencedCount {projectId : Uuid}
    (h : ∀ key ∈ offeringKeys, ∃ fact ∈ db.facts, fact.projectId = projectId ∧
      fact.factKey = key ∧ fact.status = .confirmed ∧ fact.evidenceRef.isSome = true) :
    7 ≤ db.evidencedCount projectId := by
  have hsubset : offeringKeys ⊆ ((db.facts.rows.filter fun fact => fact.projectId = projectId ∧
      fact.status = .confirmed ∧ fact.evidenceRef.isSome ∧ fact.factKey ∈ offeringKeys).map
        (·.factKey)).dedup := by
    intro key hkey
    obtain ⟨fact, hfact, hproject, rfl, hstatus, hevidence⟩ := h key hkey
    rw [List.mem_dedup]
    exact List.mem_map_of_mem (List.mem_filter.mpr ⟨hfact, by simp [*]⟩)
  exact (List.Nodup.subperm offeringKeys_nodup hsubset).length_le

/-- What the guard of the route finds met is what an offering needs. -/
theorem Db.ready_of_allowed (owned : db.DecisionsOwned) (hproject : project ∈ db.projects)
    {source target : AtLifecycleState} {reviewed : Option Bool}
    (h : checkLifecycleGuard source target
      ⟨checkOfferingGate (db.preconditionStatuses project.tenantId project.id),
        db.latestOfferingDecision project.tenantId project.id, reviewed⟩ = .allowed)
    (hfamily : target ∈ offeringFamily) : db.OfferingReady project.id := by
  obtain ⟨hgate, hlatest⟩ := checkLifecycleGuard_offering h hfamily rfl
  refine ⟨fun key hkey => db.confirmed_of_activatable hgate hkey, ?_⟩
  obtain ⟨row, hrow, hgo⟩ := Option.map_eq_some_iff.mp hlatest
  rw [owned.filter_eq hproject] at hrow
  obtain ⟨hmem, hlater⟩ := latestOf_eq_some hrow
  rw [List.mem_filter, decide_eq_true_eq] at hmem
  refine ⟨row, hmem.1, hmem.2, hgo, fun other hother hon => hlater other ?_⟩
  exact List.mem_filter.mpr ⟨hother, decide_eq_true hon⟩

/-- Where the route's guard allows a move, the trigger lets it pass. -/
theorem Db.guardOfferingLifecycle_of_allowed (owned : db.DecisionsOwned)
    (hproject : project ∈ db.projects) {source target : AtLifecycleState} {reviewed : Option Bool}
    (h : checkLifecycleGuard source target
      ⟨checkOfferingGate (db.preconditionStatuses project.tenantId project.id),
        db.latestOfferingDecision project.tenantId project.id, reviewed⟩ = .allowed)
    (old : Option AtLifecycleState) :
    db.guardOfferingLifecycle project.id old target = true := by
  by_cases hfamily : target ∈ offeringFamily
  · have hready := db.ready_of_allowed owned hproject h hfamily
    obtain ⟨-, hlatest⟩ := checkLifecycleGuard_offering h hfamily rfl
    rw [Db.latestOfferingDecision, owned.filter_eq hproject] at hlatest
    rw [Db.guardOfferingLifecycle, Bool.or_eq_true, Bool.and_eq_true]
    exact .inr ⟨decide_eq_true (db.le_evidencedCount hready.confirmed), decide_eq_true hlatest⟩
  · simp [Db.guardOfferingLifecycle, hfamily]

end Conditions

/-! ## The history of a project -/

/-- One transition after another: out of a suspension only back to where it came from
or into closure, and not by who suspended. -/
structure Continues (earlier later : LifecycleTransition) : Prop where
  joined : later.fromState = earlier.toState
  resumes : earlier.toState = suspended →
    later.toState = earlier.fromState ∨ later.toState = closure
  other : earlier.toState = suspended → later.actorSubjectId ≠ earlier.actorSubjectId

def Db.history (db : Db) (projectId : Uuid) : List LifecycleTransition :=
  db.transitions.filter (·.projectId = projectId)

/-- The transitions of a project lead from a draft to its state. -/
structure Traced (history : List LifecycleTransition) (project : Project) : Prop where
  chain : history.IsChain Continues
  first : ∀ entry ∈ history.head?, entry.fromState = draft
  last : project.lifecycleState = (history.getLast?.map (·.toState)).getD draft
  suspension : project.lifecycleState = suspended → ∃ entry, history.getLast? = some entry ∧
    project.priorLifecycleState = some entry.fromState ∧
    project.suspendedBySubjectId = some entry.actorSubjectId

theorem traced_nil {project : Project} (h : project.lifecycleState = draft) : Traced [] project where
  chain := .nil
  first := by simp
  last := h
  suspension hsuspended := by simp [h] at hsuspended

/-- A further transition, which leaves a suspension only as its row allows. -/
theorem Traced.append {history : List LifecycleTransition} {project project' : Project}
    {entry : LifecycleTransition} (h : Traced history project)
    (source : entry.fromState = project.lifecycleState)
    (resumes : project.lifecycleState = suspended → ∀ prior actor,
      project.priorLifecycleState = some prior → project.suspendedBySubjectId = some actor →
        (entry.toState = prior ∨ entry.toState = closure) ∧ entry.actorSubjectId ≠ actor)
    (target : project'.lifecycleState = entry.toState)
    (suspension : entry.toState = suspended → project'.priorLifecycleState = some entry.fromState ∧
      project'.suspendedBySubjectId = some entry.actorSubjectId) :
    Traced (history ++ [entry]) project' where
  chain := by
    refine h.chain.append (.singleton entry) fun earlier hearlier later hlater => ?_
    obtain rfl : entry = later := by simpa using hlater
    have hearlier : history.getLast? = some earlier := hearlier
    have hstate : project.lifecycleState = earlier.toState := by simpa [hearlier] using h.last
    have hresumes : earlier.toState = suspended →
        (entry.toState = earlier.fromState ∨ entry.toState = closure) ∧
          entry.actorSubjectId ≠ earlier.actorSubjectId := by
      intro hsuspended
      obtain ⟨last, hlast, hprior, hactor⟩ := h.suspension (hstate.trans hsuspended)
      obtain rfl : earlier = last := by simpa [hearlier] using hlast
      exact resumes (hstate.trans hsuspended) _ _ hprior hactor
    exact ⟨source.trans hstate, fun hsuspended => (hresumes hsuspended).1,
      fun hsuspended => (hresumes hsuspended).2⟩
  first := by
    intro first hfirst
    cases history with
    | nil =>
      obtain rfl : entry = first := by simpa using hfirst
      exact source.trans h.last
    | cons head rest => exact h.first first hfirst
  last := by simpa using target
  suspension hsuspended := ⟨entry, by simp, suspension (target.symm.trans hsuspended)⟩

/-! ## What a request relies on -/

theorem Db.projectById_eq_some {db : Db} {tenantId id : Uuid} {project : Project}
    (h : db.projectById tenantId id = some project) :
    project ∈ db.projects ∧ project.id = id ∧ project.tenantId = tenantId := by
  obtain ⟨hfound, htenant⟩ := Option.filter_eq_some_iff.mp h
  obtain ⟨hmem, hid⟩ := Table.lookup_eq_some.mp hfound
  exact ⟨hmem, hid, by simpa using htenant⟩

/-- The row that a transition has locked, and what was checked of it. -/
structure Transition.Locked (projects : Table Project.id) (transition : Transition) : Prop where
  row : transition.project ∈ projects
  id : transition.project.id = transition.request.projectId
  tenant : transition.project.tenantId = transition.request.tenantId
  moves : transition.request.toState ∈ transition.source.transitions
  resumes : transition.source = suspended →
    resumeFromSuspension (transition.project.priorLifecycleState.getD draft)
      transition.request.toState = true
  other : transition.source = suspended →
    transition.project.suspendedBySubjectId ≠ some transition.request.actor

/-- The guard allows the transition on the gate and the decision as they are. -/
def Transition.Passed (db : Db) (transition : Transition) : Prop :=
  ∃ reviewed, checkLifecycleGuard transition.source transition.request.toState
    ⟨checkOfferingGate (db.preconditionStatuses transition.request.tenantId transition.project.id),
      db.latestOfferingDecision transition.request.tenantId transition.project.id, reviewed⟩ =
    .allowed

/-- The project that a publication registers. -/
structure Registers (projects : Table Project.id) (request : PublishRequest) (project : Project) :
    Prop where
  row : project ∈ projects
  id : project.id = request.projectId
  state : project.lifecycleState = draft

def Point.Relies (db : Db) : Point → Prop
  | created project =>
    project.lifecycleState = draft ∧ ∀ other ∈ db.projects, other.id ≠ project.id
  | decided row => ∃ project ∈ db.projects, project.id = row.projectId ∧
    project.tenantId = row.tenantId
  | registering request _ project => Registers db.projects request project
  | locked transition => transition.Locked db.projects
  | factsRead transition gate => transition.Locked db.projects ∧ gate = checkOfferingGate
    (db.preconditionStatuses transition.request.tenantId transition.project.id)
  | decisionRead transition gate latest => transition.Locked db.projects ∧
    gate = checkOfferingGate
      (db.preconditionStatuses transition.request.tenantId transition.project.id) ∧
    latest = db.latestOfferingDecision transition.request.tenantId transition.project.id
  | guarded transition => transition.Locked db.projects ∧ transition.Passed db
  | updated transition => transition.Locked db.projects ∧ transition.Passed db
  | _ => True

theorem TransitionRequest.locked_of_admit {db : Db} {request : TransitionRequest}
    {startedAt : Nat} {project : Project} {transition : Transition}
    (found : db.projectById request.tenantId request.projectId = some project)
    (h : request.admit startedAt project = .ok transition) : transition.Locked db.projects := by
  obtain ⟨hrow, hid, htenant⟩ := Db.projectById_eq_some found
  obtain ⟨-, h⟩ := Outcome.guard_ok.mp h
  obtain ⟨hmoves, h⟩ := Outcome.guard_ok.mp h
  obtain ⟨hresumes, h⟩ := Outcome.guard_ok.mp h
  obtain ⟨hother, h⟩ := Outcome.guard_ok.mp h
  cases h
  exact ⟨hrow, hid, htenant, not_not.mp hmoves,
    fun hsuspended => Bool.not_eq_false _ ▸ fun hfalse => hresumes ⟨hsuspended, hfalse⟩,
    fun hsuspended hself => hother ⟨hsuspended, hself⟩⟩

/-- What a request relies on after its own statement. -/
theorem Point.relies_of_next {db : Db} {given : Given} {p q : Point}
    (h : p.next db given = .ok q) (before : p.Relies db) : q.Relies db := by
  cases p with
  | idle =>
    simp only [next] at h
    split at h <;> cases h <;> trivial
  | creating request =>
    obtain ⟨hfresh, h⟩ := Outcome.guard_ok.mp h
    cases h
    exact ⟨rfl, fun other hother hid => hfresh ⟨other, hother, hid⟩⟩
  | recordingFact request =>
    cases h
    trivial
  | factLocked request =>
    simp only [next] at h
    split at h
    · cases h
    · obtain ⟨-, h⟩ := Outcome.guard_ok.mp h
      cases h
      trivial
  | deciding request startedAt =>
    simp only [next] at h
    split at h
    · cases h
    · next project hfound =>
      cases h
      obtain ⟨hrow, hid, htenant⟩ := Db.projectById_eq_some hfound
      exact ⟨project, hrow, hid, htenant⟩
  | publishing request startedAt =>
    simp only [next] at h
    split at h
    · cases h
      trivial
    · next project hfound =>
      obtain ⟨hrow, hid, -⟩ := Db.projectById_eq_some hfound
      split at h <;> cases h
      · next hdraft => exact ⟨hrow, hid, hdraft⟩
      · trivial
  | begun request startedAt =>
    simp only [next] at h
    split at h
    · cases h
    · next project hfound =>
      obtain ⟨transition, hadmitted, rfl⟩ := Outcome.map_ok.mp h
      exact TransitionRequest.locked_of_admit hfound hadmitted
  | locked transition =>
    cases h
    exact ⟨before, rfl⟩
  | factsRead transition gate =>
    cases h
    exact ⟨before.1, before.2, rfl⟩
  | decisionRead transition gate latest =>
    obtain ⟨hlocked, rfl, rfl⟩ := before
    simp only [next] at h
    split at h <;> cases h
    next hallowed => exact ⟨hlocked, _, hallowed⟩
  | guarded transition =>
    obtain ⟨-, h⟩ := Outcome.guard_ok.mp h
    obtain ⟨-, h⟩ := Outcome.guard_ok.mp h
    cases h
    exact before
  | created | factReferenced | decided | registering | unmoved | updated => cases h

/-! ## What a commit does -/

/-- Everything a commit can be. -/
inductive Commits : Point → (Db → Db) → Prop where
  | create (project : Project) : Commits (.created project) fun db =>
      { db with projects := db.projects.insertIfAbsent project }
  | fact (request : FactRequest) : Commits (.factReferenced request) fun db =>
      { db with facts := request.upsert db.facts }
  | decision (row : GateDecision) : Commits (.decided row) fun db =>
      { db with decisions := db.decisions ++ [row] }
  | register (request : PublishRequest) (startedAt : Nat) (project : Project) :
      Commits (.registering request startedAt project) fun db =>
        { db with
          projects := db.projects.update (·.id = project.id) Project.register fun _ => rfl
          transitions := db.transitions ++ [request.entry startedAt] }
  | unmoved : Commits .unmoved id
  | transition (transition : Transition) : Commits (.updated transition) fun db =>
      { db with
        projects := db.projects.update (·.id = transition.project.id) transition.change fun _ => rfl
        transitions := db.transitions ++ [transition.entry] }

theorem commits_of_effect {p : Point} {f : Db → Db} (h : p.effect = some f) : Commits p f := by
  cases p <;> cases h
  · exact .create _
  · exact .fact _
  · exact .decision _
  · exact .register _ _ _
  · exact .unmoved
  · exact .transition _

theorem Transition.change_id (transition : Transition) (project : Project) :
    (transition.change project).id = project.id := rfl

theorem Project.register_id (project : Project) : project.register.id = project.id := rfl

/-- The project of a commit that moves one, what it becomes and the entry for it. -/
inductive Point.Enters : Point → Project → Project → LifecycleTransition → Prop where
  | register (request : PublishRequest) (startedAt : Nat) (project : Project) :
      Enters (.registering request startedAt project) project project.register
        (request.entry startedAt)
  | transition (transition : Transition) :
      Enters (.updated transition) transition.project (transition.change transition.project)
        transition.entry

theorem Point.Enters.tenant {p : Point} {project project' : Project} {entry : LifecycleTransition}
    (h : p.Enters project project' entry) : project'.tenantId = project.tenantId := by
  cases h with
  | register => rfl
  | transition => rfl

section Commits

variable {db : Db} {p : Point} {f : Db → Db} {project project' : Project} {entry : LifecycleTransition}

theorem Point.Enters.id (h : p.Enters project project' entry) (relies : p.Relies db) :
    project ∈ db.projects ∧ project'.id = project.id ∧ entry.projectId = project.id := by
  cases h with
  | register request startedAt => exact ⟨relies.row, rfl, relies.id.symm⟩
  | transition transition => exact ⟨relies.1.row, rfl, relies.1.id.symm⟩

/-- What becomes of a project: it stays and so does its history, or the commit moves it. -/
inductive ProjectAfter (db db' : Db) (p : Point) (project : Project) : Project → Prop where
  | same (history : db'.history project.id = db.history project.id) :
      ProjectAfter db db' p project project
  | moved (project' : Project) (entry : LifecycleTransition) (enters : p.Enters project project' entry)
      (history : db'.history project.id = db.history project.id ++ [entry]) :
      ProjectAfter db db' p project project'

theorem history_append_self {entry : LifecycleTransition} {projects : Table Project.id}
    {projectId : Uuid} (h : entry.projectId = projectId) :
    Db.history { db with projects, transitions := db.transitions ++ [entry] } projectId =
      db.history projectId ++ [entry] := by
  simp [Db.history, List.filter_append, h]

theorem history_append_other {entry : LifecycleTransition} {projects : Table Project.id}
    {projectId : Uuid} (h : entry.projectId ≠ projectId) :
    Db.history { db with projects, transitions := db.transitions ++ [entry] } projectId =
      db.history projectId := by
  simp [Db.history, List.filter_append, h]

theorem Commits.projectAfter (h : Commits p f) (relies : p.Relies db)
    (hproject : project ∈ db.projects) :
    ∃ project' ∈ (f db).projects, ProjectAfter db (f db) p project project' := by
  cases h with
  | create new => exact ⟨project, Table.mem_insertIfAbsent_of_mem hproject, .same rfl⟩
  | fact request => exact ⟨project, hproject, .same rfl⟩
  | decision row => exact ⟨project, hproject, .same rfl⟩
  | unmoved => exact ⟨project, hproject, .same rfl⟩
  | register request startedAt target =>
    refine ⟨_, Table.mem_update_of_mem Project.register_id hproject, ?_⟩
    split
    · next hselected =>
      obtain rfl : project = target :=
        Table.eq_of_key hproject relies.row (of_decide_eq_true hselected)
      exact .moved _ _ (.register request startedAt project) (history_append_self relies.id.symm)
    · next hother =>
      refine .same (history_append_other fun hid => hother ?_)
      exact decide_eq_true (hid.symm.trans relies.id.symm)
  | transition transition =>
    refine ⟨_, Table.mem_update_of_mem transition.change_id hproject, ?_⟩
    split
    · next hselected =>
      obtain rfl : project = transition.project :=
        Table.eq_of_key hproject relies.1.row (of_decide_eq_true hselected)
      exact .moved _ _ (.transition transition) (history_append_self relies.1.id.symm)
    · next hother =>
      refine .same (history_append_other fun hid => hother ?_)
      exact decide_eq_true (hid.symm.trans relies.1.id.symm)

/-- A project that a commit adds is a draft. -/
theorem Commits.exists_before (h : Commits p f) (relies : p.Relies db)
    (hproject : project' ∈ (f db).projects) :
    (∃ project ∈ db.projects, project.id = project'.id) ∨
      p = .created project' ∧ project'.lifecycleState = draft ∧
        ∀ other ∈ db.projects, other.id ≠ project'.id := by
  cases h with
  | create new =>
    rcases Table.mem_insertIfAbsent.mp hproject with hold | ⟨rfl, -⟩
    · exact .inl ⟨project', hold, rfl⟩
    · exact .inr ⟨rfl, relies⟩
  | fact request => exact .inl ⟨project', hproject, rfl⟩
  | decision row => exact .inl ⟨project', hproject, rfl⟩
  | unmoved => exact .inl ⟨project', hproject, rfl⟩
  | register request startedAt target =>
    obtain ⟨old, hold, hid, -⟩ := Table.exists_of_mem_update Project.register_id hproject
    exact .inl ⟨old, hold, hid⟩
  | transition transition =>
    obtain ⟨old, hold, hid, -⟩ := Table.exists_of_mem_update transition.change_id hproject
    exact .inl ⟨old, hold, hid⟩

/-- What does not change of a project. -/
theorem ProjectAfter.keeps {db' : Db} (h : ProjectAfter db db' p project project')
    (relies : p.Relies db) : project'.id = project.id ∧ project'.tenantId = project.tenantId := by
  cases h with
  | same => exact ⟨rfl, rfl⟩
  | moved _ entry enters => exact ⟨(enters.id relies).2.1, enters.tenant⟩

/-- Unless the committing request has locked it, a project stays as it is. -/
theorem Commits.mem_of_unlocked (h : Commits p f) (relies : p.Relies db)
    (hproject : project ∈ db.projects) (unlocked : (.row project.id, .exclusive) ∉ p.locks) :
    project ∈ (f db).projects := by
  obtain ⟨project', hmem, hafter⟩ := h.projectAfter relies hproject
  cases hafter with
  | same => exact hmem
  | moved _ entry enters =>
    cases enters with
    | register => exact absurd (by simp [Point.locks]) unlocked
    | transition transition => exact absurd (by simp [Point.locks, Transition.locks]) unlocked

theorem Commits.fresh_of_unlocked (h : Commits p f) (relies : p.Relies db) {id : Uuid}
    (fresh : ∀ project ∈ db.projects, project.id ≠ id)
    (unlocked : (.row id, .exclusive) ∉ p.locks) : ∀ project ∈ (f db).projects, project.id ≠ id := by
  intro project hproject hid
  rcases h.exists_before relies hproject with ⟨old, hold, hsame⟩ | ⟨rfl, -⟩
  · exact fresh old hold (hsame.trans hid)
  · exact unlocked (by simp [Point.locks, hid])

/-- The upsert of a fact of another project. -/
theorem preconditionStatuses_upsert {request : FactRequest} {tenantId projectId : Uuid}
    (hother : request.projectId ≠ projectId) :
    Db.preconditionStatuses { db with facts := request.upsert db.facts } tenantId projectId =
      db.preconditionStatuses tenantId projectId := by
  have hrow : request.row.projectId ≠ projectId := hother
  simp only [Db.preconditionStatuses, FactRequest.upsert]
  rw [Table.filter_insertIfAbsent_of_not (by simp [hrow]),
    Table.filter_update_of_not request.apply_key]
  intro fact hselected
  have hkey : fact.projectId = request.projectId :=
    congrArg Prod.fst (of_decide_eq_true hselected : fact.key = request.row.key)
  have hfact : fact.projectId ≠ projectId := hkey ▸ hother
  have hchanged : (request.apply fact).projectId ≠ projectId := hfact
  simp [hfact, hchanged]

variable (db) in
/-- No fact and no decision of a project is committed while another request has
locked its key. -/
theorem Commits.gate_of_unlocked (h : Commits p f) (tenantId : Uuid) {projectId : Uuid}
    (unlocked : (.key projectId, .share) ∉ p.locks) :
    (f db).preconditionStatuses tenantId projectId = db.preconditionStatuses tenantId projectId ∧
      (f db).latestOfferingDecision tenantId projectId =
        db.latestOfferingDecision tenantId projectId := by
  cases h with
  | fact request =>
    refine ⟨preconditionStatuses_upsert fun hid => unlocked ?_, rfl⟩
    simp [Point.locks, hid]
  | decision row =>
    have hother : row.projectId ≠ projectId := fun hid => unlocked (by simp [Point.locks, hid])
    refine ⟨rfl, ?_⟩
    simp [Db.latestOfferingDecision, List.filter_append, hother]
  | create => exact ⟨rfl, rfl⟩
  | register => exact ⟨rfl, rfl⟩
  | unmoved => exact ⟨rfl, rfl⟩
  | transition => exact ⟨rfl, rfl⟩

theorem Transition.Locked.commit {transition : Transition} (h : transition.Locked db.projects)
    (commits : Commits p f) (relies : p.Relies db)
    (unlocked : (.row transition.project.id, .exclusive) ∉ p.locks) :
    transition.Locked (f db).projects :=
  { h with row := commits.mem_of_unlocked relies h.row unlocked }

theorem Transition.Passed.commit {transition : Transition} (h : transition.Passed db)
    (commits : Commits p f) (unlocked : (.key transition.project.id, .share) ∉ p.locks) :
    transition.Passed (f db) := by
  obtain ⟨reviewed, hallowed⟩ := h
  obtain ⟨hstatuses, hlatest⟩ := commits.gate_of_unlocked db transition.request.tenantId unlocked
  exact ⟨reviewed, by rw [hstatuses, hlatest]; exact hallowed⟩

/-- What another request relies on survives a commit: its locks are in the way of the rest. -/
theorem Point.Relies.commit {q : Point} (h : q.Relies db) (commits : Commits p f)
    (relies : p.Relies db) (apart : lifecycle.Compatible q p) : q.Relies (f db) := by
  have unlocked : ∀ {key : Lock} {mode : LockMode}, (key, .exclusive) ∈ q.locks →
      (key, mode) ∉ p.locks := fun hmem => apart.not_both hmem
  cases q with
  | created project =>
    exact ⟨h.1, commits.fresh_of_unlocked relies h.2 (unlocked (by simp [locks]))⟩
  | decided row =>
    obtain ⟨project, hproject, hid, htenant⟩ := h
    obtain ⟨project', hproject', hafter⟩ := commits.projectAfter relies hproject
    obtain ⟨hid', htenant'⟩ := hafter.keeps relies
    exact ⟨project', hproject', hid'.trans hid, htenant'.trans htenant⟩
  | registering request startedAt project =>
    exact { h with row := commits.mem_of_unlocked relies h.row (unlocked (by simp [locks])) }
  | locked transition =>
    exact Transition.Locked.commit h commits relies (unlocked (by simp [locks, Transition.locks]))
  | factsRead transition gate =>
    obtain ⟨hlocked, hgate⟩ := h
    have hkey : (.key transition.project.id, .share) ∉ p.locks :=
      unlocked (by simp [locks, Transition.locks])
    have hsame := commits.gate_of_unlocked db transition.request.tenantId hkey
    exact ⟨hlocked.commit commits relies (unlocked (by simp [locks, Transition.locks])),
      hsame.1 ▸ hgate⟩
  | decisionRead transition gate latest =>
    obtain ⟨hlocked, hgate, hlatest⟩ := h
    have hkey : (.key transition.project.id, .share) ∉ p.locks :=
      unlocked (by simp [locks, Transition.locks])
    have hsame := commits.gate_of_unlocked db transition.request.tenantId hkey
    exact ⟨hlocked.commit commits relies (unlocked (by simp [locks, Transition.locks])),
      hsame.1 ▸ hgate, hsame.2 ▸ hlatest⟩
  | guarded transition =>
    exact ⟨h.1.commit commits relies (unlocked (by simp [locks, Transition.locks])),
      h.2.commit commits (unlocked (by simp [locks, Transition.locks]))⟩
  | updated transition =>
    exact ⟨h.1.commit commits relies (unlocked (by simp [locks, Transition.locks])),
      h.2.commit commits (unlocked (by simp [locks, Transition.locks]))⟩
  | _ => trivial

/-- Nothing that is relied on speaks of the clock or of review activity. -/
theorem Point.Relies.outside (h : p.Relies db) (reviews : List ReviewActivity) (now : Nat) :
    p.Relies { db with reviews, now } := by
  cases p with
  | _ => exact h

/-! ## The invariant -/

/-- What the tables keep. -/
structure Wellformed (db : Db) : Prop where
  owned : db.DecisionsOwned
  known : ∀ entry ∈ db.transitions, ∃ project ∈ db.projects, project.id = entry.projectId
  traced : ∀ project ∈ db.projects, Traced (db.history project.id) project

theorem Wellformed.history_eq_nil (hdb : Wellformed db) {id : Uuid}
    (fresh : ∀ project ∈ db.projects, project.id ≠ id) : db.history id = [] := by
  refine List.filter_eq_nil_iff.mpr fun entry hentry hid => ?_
  obtain ⟨project, hproject, hknown⟩ := hdb.known entry hentry
  exact fresh project hproject (hknown.trans (of_decide_eq_true hid))

/-- A commit that moves a project continues its history. -/
theorem Point.Enters.traced (h : p.Enters project project' entry) (relies : p.Relies db)
    (traced : Traced (db.history project.id) project) :
    Traced (db.history project.id ++ [entry]) project' := by
  cases h with
  | register request startedAt =>
    have hdraft : project.lifecycleState = draft := relies.state
    refine traced.append hdraft.symm (fun hsuspended => ?_) rfl (fun hsuspended => ?_)
    · simp [hdraft] at hsuspended
    · cases hsuspended
  | transition transition =>
    obtain ⟨hlocked, -⟩ := relies
    refine traced.append rfl (fun hsuspended prior actor hprior hactor => ⟨?_, fun hself => ?_⟩) rfl
      (fun hsuspended => ?_)
    · have hresumes := hlocked.resumes hsuspended
      rw [hprior, Option.getD_some, resumeFromSuspension_iff] at hresumes
      exact hresumes.symm.imp_left And.left
    · exact hlocked.other hsuspended (hactor.trans (congrArg some hself.symm))
    · have htarget : transition.request.toState = suspended := hsuspended
      simp [Transition.change, TransitionRequest.apply, htarget, Transition.entry,
        TransitionRequest.entry]

theorem ProjectAfter.traced {db' : Db} (h : ProjectAfter db db' p project project')
    (relies : p.Relies db) (traced : Traced (db.history project.id) project) :
    Traced (db'.history project'.id) project' := by
  cases h with
  | same history => exact history ▸ traced
  | moved _ entry enters history =>
    rw [(enters.id relies).2.1, history]
    exact enters.traced relies traced

theorem Commits.wellformed (h : Commits p f) (relies : p.Relies db) (hdb : Wellformed db) :
    Wellformed (f db) where
  owned row hrow := by
    have hold : ∀ row : GateDecision, (∃ project ∈ db.projects, project.id = row.projectId ∧
        project.tenantId = row.tenantId) → ∃ project ∈ (f db).projects,
          project.id = row.projectId ∧ project.tenantId = row.tenantId := by
      rintro row ⟨project, hproject, hid, htenant⟩
      obtain ⟨project', hproject', hafter⟩ := h.projectAfter relies hproject
      obtain ⟨hid', htenant'⟩ := hafter.keeps relies
      exact ⟨project', hproject', hid'.trans hid, htenant'.trans htenant⟩
    have hmem : row ∈ db.decisions ∨ p = .decided row := by
      cases h with
      | decision new =>
        rcases List.mem_append.mp hrow with hrow | hrow
        · exact .inl hrow
        · exact .inr (by rw [List.mem_singleton.mp hrow])
      | _ => exact .inl hrow
    rcases hmem with hmem | rfl
    · exact hold row (hdb.owned row hmem)
    · exact hold row relies
  known entry hentry := by
    have hold : ∀ {id : Uuid}, (∃ project ∈ db.projects, project.id = id) →
        ∃ project ∈ (f db).projects, project.id = id := by
      rintro _ ⟨project, hproject, rfl⟩
      obtain ⟨project', hproject', hafter⟩ := h.projectAfter relies hproject
      exact ⟨project', hproject', (hafter.keeps relies).1⟩
    have hmem : entry ∈ db.transitions ∨ ∃ project project', p.Enters project project' entry := by
      cases h with
      | register request startedAt project =>
        rcases List.mem_append.mp hentry with hentry | hentry
        · exact .inl hentry
        · rw [List.mem_singleton.mp hentry]
          exact .inr ⟨_, _, .register request startedAt project⟩
      | transition transition =>
        rcases List.mem_append.mp hentry with hentry | hentry
        · exact .inl hentry
        · rw [List.mem_singleton.mp hentry]
          exact .inr ⟨_, _, .transition transition⟩
      | _ => exact .inl hentry
    rcases hmem with hmem | ⟨project, project', enters⟩
    · exact hold (hdb.known entry hmem)
    · obtain ⟨hproject, -, hid⟩ := enters.id relies
      exact hold ⟨project, hproject, hid.symm⟩
  traced project hproject := by
    rcases h.exists_before relies hproject with ⟨old, hold, hid⟩ | ⟨rfl, hdraft, hfresh⟩
    · obtain ⟨project', hproject', hafter⟩ := h.projectAfter relies hold
      obtain rfl : project' = project :=
        Table.eq_of_key hproject' hproject ((hafter.keeps relies).1.trans hid)
      exact hafter.traced relies (hdb.traced old hold)
    · cases h
      have hnone : Db.history { db with projects := db.projects.insertIfAbsent project } project.id =
          [] := hdb.history_eq_nil hfresh
      exact hnone ▸ traced_nil hdraft

end Commits

/-! ## Runs -/

section Runs

variable {W : Type} {s t : State W Db Point}

theorem lifecycle_maintains : lifecycle.Maintains (W := W) (fun _ _ => True) Wellformed
    fun db p => p.Relies db := by
  constructor
  case idle => exact fun _ _ => trivial
  case statement =>
    intro s w given q sound _ ran
    exact Point.relies_of_next ran (sound.relies w)
  case commit =>
    intro s w f sound _ done
    exact (commits_of_effect done).wellformed (sound.relies w) sound.committed
  case stable =>
    intro s w v f sound _ hne done
    exact (sound.relies v).commit (commits_of_effect done) (sound.relies w)
      (sound.compatible v w hne)
  case outside =>
    intro s given db sound moved
    cases moved
    refine ⟨⟨sound.committed.owned, sound.committed.known, sound.committed.traced⟩, fun w => ?_⟩
    exact (sound.relies w).outside _ _

theorem wellformed_empty (now : Nat) : Wellformed (Db.empty now) where
  owned _ hrow := absurd hrow List.not_mem_nil
  known _ hentry := absurd hentry List.not_mem_nil
  traced project hproject := absurd hproject (Table.not_mem_empty project)

/-- What a step does to a project: nothing, or it moves it and records that, into the
offering family only when an offering is ready. -/
structure StepGuarded (db db' : Db) : Prop where
  moved : ∀ project ∈ db.projects, ∃ project' ∈ db'.projects, project'.id = project.id ∧
    (project'.lifecycleState = project.lifecycleState ∧
        db'.history project.id = db.history project.id ∨
      ∃ entry, db'.history project.id = db.history project.id ++ [entry] ∧
        entry.fromState = project.lifecycleState ∧ entry.toState = project'.lifecycleState ∧
        (project'.lifecycleState ∈ offeringFamily → db.OfferingReady project.id))
  created : ∀ project' ∈ db'.projects, (∀ project ∈ db.projects, project.id ≠ project'.id) →
    project'.lifecycleState = draft

/-- The route refuses a transition whenever the trigger would. -/
def RefusesWithTrigger (db : Db) (project : Project) : Prop :=
  ∀ target, db.guardOfferingLifecycle project.id (some project.lifecycleState) target = false →
    checkLifecycleGuard project.lifecycleState target
      (db.readGuardFacts project.tenantId project.id project.lifecycleState) ≠ .allowed

theorem StepGuarded.of_same {db db' : Db} (projects : db'.projects = db.projects)
    (transitions : db'.transitions = db.transitions) : StepGuarded db db' where
  moved project hproject := ⟨project, projects ▸ hproject, rfl, .inl ⟨rfl, by
    rw [Db.history, transitions, Db.history]⟩⟩
  created project hproject fresh := absurd rfl (fresh project (projects ▸ hproject))

theorem Commits.stepGuarded {db : Db} {p : Point} {f : Db → Db} (h : Commits p f)
    (relies : p.Relies db) (owned : db.DecisionsOwned) : StepGuarded db (f db) where
  moved project hproject := by
    obtain ⟨project', hproject', hafter⟩ := h.projectAfter relies hproject
    refine ⟨project', hproject', (hafter.keeps relies).1, ?_⟩
    cases hafter with
    | same history => exact .inl ⟨rfl, history⟩
    | moved _ entry enters history =>
      refine .inr ⟨entry, history, ?_⟩
      cases enters with
      | register request startedAt =>
        refine ⟨relies.state.symm, rfl, fun hfamily => absurd hfamily ?_⟩
        exact (by decide : registered ∉ offeringFamily)
      | transition transition =>
        obtain ⟨hlocked, reviewed, hallowed⟩ := relies
        rw [← hlocked.tenant] at hallowed
        exact ⟨rfl, rfl, fun hfamily => db.ready_of_allowed owned hproject hallowed hfamily⟩
  created project' hproject' fresh := by
    rcases h.exists_before relies hproject' with ⟨project, hproject, hid⟩ | ⟨-, hdraft, -⟩
    · exact absurd hid (fresh project hproject)
    · exact hdraft

/-- In every run of transitions and publications: a project's history explains its state, a
suspension is left only as it allows, the route refuses what the trigger would, and a step
takes a project into the offering family only when an offering is ready. -/
theorem lifecycle_guarded [DecidableEq W] (reached : (lifecycleSystem W).Reachable s) :
    (∀ project ∈ s.committed.projects,
      Traced (s.committed.history project.id) project ∧ RefusesWithTrigger s.committed project) ∧
    ∀ a t, (lifecycleSystem W).step s a t → StepGuarded s.committed t.committed := by
  have sound := lifecycle_maintains.reachable (fun db hdb => by
    obtain ⟨now, rfl⟩ := hdb
    exact wellformed_empty now) (reached.restrict fun _ _ => trivial)
  refine ⟨fun project hproject => ⟨sound.committed.traced project hproject, ?_⟩, fun a t step => ?_⟩
  · intro target hraised hallowed
    rw [Db.guardOfferingLifecycle_of_allowed sound.committed.owned hproject hallowed] at hraised
    cases hraised
  · cases step with
    | statement _ _ => exact .of_same rfl rfl
    | refused _ => exact .of_same rfl rfl
    | abort _ => exact .of_same rfl rfl
    | outside moved =>
      cases moved
      exact .of_same rfl rfl
    | @commit w f done =>
      exact (commits_of_effect done).stepGuarded (sound.relies w) sound.committed.owned

/-! ## A run into a suspension -/

def script (request : Request) (steps : Nat) : List Given :=
  List.replicate steps ⟨request, 7, none, 0⟩

def moveTo (toState : AtLifecycleState) (expectedVersion : Nat) (actor : Uuid) : List Given :=
  script (.transition {
    tenantId := 1
    projectId := 7
    toState
    reason := units "board resolution"
    expectedVersion
    actor }) 6

/-- Project 7 is published, its preconditions are confirmed, a go is decided, the
offering opens and is suspended. -/
def openedAndSuspended : List (List Given) :=
  [script (.create ⟨1⟩) 2, script (.publish ⟨1, 7, 2⟩) 2] ++
  (offeringKeys.map fun key => script (.recordFact ⟨1, 7, key, .confirmed, some 5⟩) 3) ++
  [script (.decide ⟨1, 7, offeringGateId, .go⟩) 2, moveTo .offeringOpen 2 2,
    moveTo .suspended 3 3]

/-- A project that has been suspended while its offering was open. -/
theorem lifecycle_guarded_suspended :
    ∃ s : State Nat Db Point, (∃ project ∈ s.committed.projects,
      project.lifecycleState = suspended ∧ project.priorLifecycleState = some offeringOpen ∧
      Traced (s.committed.history project.id) project ∧
      RefusesWithTrigger s.committed project) ∧
    ∀ a t, (lifecycleSystem Nat).step s a t → StepGuarded s.committed t.committed := by
  have hrun : ((lifecycle.inTurn (fun _ _ => true) (Db.empty 0) openedAndSuspended).any fun db =>
      db.projects.rows.any fun project => project.lifecycleState = suspended ∧
        project.priorLifecycleState = some offeringOpen) = true := by
    decide +kernel
  obtain ⟨db, hdb, hrun⟩ := Option.any_eq_true _ _ |>.mp hrun
  obtain ⟨project, hproject, hstate⟩ := List.any_eq_true.mp hrun
  obtain ⟨hsuspended, hprior⟩ := of_decide_eq_true hstate
  have hok := Protocol.permits_true (P := lifecycle) (W := Nat) fun _ _ => true
  have reached := (Protocol.reachable_inTurn StartsEmpty hok 0 ⟨0, rfl⟩ hdb).of_restrict
  obtain ⟨hprojects, hsteps⟩ := lifecycle_guarded reached
  exact ⟨_, ⟨project, hproject, hsuspended, hprior, hprojects project hproject⟩, hsteps⟩

end Runs

end MpcRegistry.Lifecycle
