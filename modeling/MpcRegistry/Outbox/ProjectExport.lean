import MpcRegistry.Outbox.Delivery

/-!
# The project export consumer

Source: apps/jobs-worker/src/project-export.ts:340-395 and outbox-handlers.ts,
apps/api/src/routes/exports.ts:185-240 and packages/db/migrations/0067_project_exports.sql.
What a package holds is a parameter: a build is told what loading the records
and assembling them gives.
-/
namespace MpcRegistry.Outbox
open Library Processes

variable {W P : Type}

inductive ExportState where
  | queued | succeeded | failed
  deriving DecidableEq, Repr

/-- `core.project_exports` -/
structure ExportJob (P : Type) where
  id : Uuid
  tenantId : Uuid
  projectId : Uuid
  requestedBySubjectId : Uuid
  sensitivityClearance : List Text
  state : ExportState
  package : Option P
  manifestHash : Option Text
  failureReason : Option Text
  requestedAt : Nat
  completedAt : Option Nat
  deriving DecidableEq

abbrev ExportJobs (P : Type) := Table (ExportJob.id (P := P))

/-- An API transaction: an export is requested, or another event is enqueued. -/
inductive ApiRequest where
  | projectExport (id eventId tenantId projectId subjectId : Uuid) (clearance : List Text)
  | event (event : DomainEvent)

/-- What a consumer or a request depends on that is not in the store. A statement
that throws may have taken effect. -/
structure ExportGiven (P : Type) where
  request : ApiRequest
  selectThrows : Option Thrown
  built : Except Thrown (P × Text)
  updateThrows : Option (Bool × Thrown)

def exportRequested : Text := units "project.export.requested"

/-- `exportIdOf` -/
def exportIdOf (event : OutboxRow) : Except Thrown Uuid :=
  match event.exportId with
  | some id => .ok id
  | none => .error (.error (units "Error") (units "EXPORT_EVENT_WITHOUT_ID"))

/-- An update and how it ends. -/
def updating {J : Type} (given : ExportGiven P) (before after : J) : J × Option Thrown :=
  match given.updateThrows with
  | none => (after, none)
  | some (applied, error) => (if applied then after else before, some error)

def ExportJob.succeed (now : Nat) (package : P) (manifestHash : Text) (job : ExportJob P) :
    ExportJob P :=
  { job with
    state := .succeeded
    package := some package
    manifestHash := some manifestHash
    failureReason := none
    completedAt := some now }

def ExportJob.fail (now : Nat) (job : ExportJob P) : ExportJob P :=
  { job with
    state := .failed
    failureReason := some (units "EXPORT_BUILD_FAILED")
    completedAt := some now }

/-- `buildProjectExport`; a job that is missing or built ends it without a write. -/
def buildProjectExport (exportId : Uuid) (now : Nat) (given : ExportGiven P)
    (jobs : ExportJobs P) : ExportJobs P × Option Thrown :=
  match given.selectThrows, jobs.lookup exportId with
  | some error, _ => (jobs, some error)
  | none, none => (jobs, none)
  | none, some job =>
    if job.state = .succeeded then (jobs, none)
    else
      match given.built with
      | .error error => (jobs, some error)
      | .ok (package, manifestHash) =>
        updating given jobs
          (jobs.update (fun job => job.id = exportId && job.state != .succeeded)
            (ExportJob.succeed now package manifestHash) fun _ => rfl)

/-- The hook of `projectExportHandler`. -/
def settleExport (event : OutboxRow) (now : Nat) (given : ExportGiven P) (jobs : ExportJobs P) :
    ExportJobs P × Option Thrown :=
  match exportIdOf event with
  | .error error => (jobs, some error)
  | .ok exportId =>
    updating given jobs
      (jobs.update (fun job => job.id = exportId && job.state == .queued) (ExportJob.fail now)
        fun _ => rfl)

def projectExportHandler : OutboxHandler (ExportJobs P) (ExportGiven P) where
  name := units "project_export"
  version := units "1"
  accepts eventType := eventType = exportRequested
  handle event now given jobs :=
    match exportIdOf event with
    | .error error => (jobs, some error)
    | .ok exportId => buildProjectExport exportId now given jobs
  onDeadLetter := some settleExport

def buildOutboxHandlers : List (OutboxHandler (ExportJobs P) (ExportGiven P)) :=
  [logHandler, projectExportHandler]

/-- The job row and its event are written together; other events are of other types. -/
def apiRequest (given : ExportGiven P) (now : Nat) (jobs : ExportJobs P) :
    Option (ExportJobs P × List DomainEvent) :=
  match given.request with
  | .projectExport id eventId tenantId projectId subjectId clearance =>
    if (jobs.lookup id).isSome then none
    else
      some (jobs.insertIfAbsent
        { id, tenantId, projectId
          requestedBySubjectId := subjectId
          sensitivityClearance := clearance
          state := .queued
          package := none
          manifestHash := none
          failureReason := none
          requestedAt := now
          completedAt := none },
        [{ id := eventId, tenantId, eventType := exportRequested, exportId := some id }])
  | .event event => if event.eventType = exportRequested then none else some (jobs, [event])

/-- The workers and commands of the repository, each with its own settings. -/
def exports (limit maxAttempts backoffMs : W → Nat) :
    Deployment W (ExportJobs P) (ExportGiven P) where
  handlers _ := buildOutboxHandlers
  limit
  maxAttempts
  backoffMs
  request := apiRequest

/-! ## What a consumer does to the jobs -/

/-- A job that is still queued afterwards was so before, and no job disappears. -/
structure JobsEvolve (jobs jobs' : ExportJobs P) : Prop where
  queued : ∀ job ∈ jobs', job.state = .queued → job ∈ jobs
  kept : ∀ job ∈ jobs, ∃ job' ∈ jobs', job'.id = job.id

theorem JobsEvolve.refl (jobs : ExportJobs P) : JobsEvolve jobs jobs :=
  ⟨fun _ h _ => h, fun job h => ⟨job, h, rfl⟩⟩

theorem jobsEvolve_update {jobs : ExportJobs P} {selected : ExportJob P → Bool}
    {change : ExportJob P → ExportJob P} {keeps : ∀ job, (change job).id = job.id}
    (hchange : ∀ job, (change job).state ≠ .queued) :
    JobsEvolve jobs (jobs.update selected change keeps) where
  queued job' hjob' hqueued := by
    obtain ⟨job, hjob, -, rfl | ⟨-, rfl⟩⟩ := Table.exists_of_mem_update keeps hjob'
    · exact hjob
    · exact absurd hqueued (hchange job)
  kept job hjob := by
    refine ⟨_, Table.mem_update_of_mem keeps hjob, ?_⟩
    split
    · exact keeps job
    · rfl

theorem jobsEvolve_updating {given : ExportGiven P} {jobs jobs' : ExportJobs P}
    (h : JobsEvolve jobs jobs') : JobsEvolve jobs (updating given jobs jobs').1 := by
  unfold updating
  split
  · exact h
  · next applied error _ =>
    cases applied
    · exact .refl jobs
    · exact h

theorem jobsEvolve_settleExport (event : OutboxRow) (now : Nat) (given : ExportGiven P)
    (jobs : ExportJobs P) : JobsEvolve jobs (settleExport event now given jobs).1 := by
  unfold settleExport
  split
  · exact .refl jobs
  · exact jobsEvolve_updating (jobsEvolve_update fun _ => by simp [ExportJob.fail])

theorem jobsEvolve_handle (handler : OutboxHandler (ExportJobs P) (ExportGiven P))
    (hmem : handler ∈ buildOutboxHandlers) (event : OutboxRow) (now : Nat) (given : ExportGiven P)
    (jobs : ExportJobs P) : JobsEvolve jobs (handler.handle event now given jobs).1 := by
  rcases List.mem_pair.mp hmem with rfl | rfl
  · exact .refl jobs
  · simp only [projectExportHandler]
    split
    · exact .refl jobs
    · unfold buildProjectExport
      split
      · exact .refl jobs
      · exact .refl jobs
      · split
        · exact .refl jobs
        · split
          · exact .refl jobs
          · exact jobsEvolve_updating (jobsEvolve_update fun _ => by simp [ExportJob.succeed])

/-- A build that ends without an error leaves no queued job behind. -/
theorem not_queued_of_handle {event : OutboxRow} {now : Nat} {given : ExportGiven P}
    {jobs jobs' : ExportJobs P}
    (h : (projectExportHandler (P := P)).handle event now given jobs = (jobs', none))
    {job : ExportJob P} (hjob : job ∈ jobs') (hid : event.exportId = some job.id)
    (hexists : ∃ job' ∈ jobs, job'.id = job.id) : job.state ≠ .queued := by
  obtain ⟨old, hold, hsame⟩ := hexists
  have hlookup : jobs.lookup job.id = some old := Table.lookup_eq_some.mpr ⟨hold, hsame⟩
  simp only [projectExportHandler, exportIdOf, hid, buildProjectExport] at h
  cases hselect : given.selectThrows with
  | some error => simp [hselect] at h
  | none =>
    simp only [hselect, hlookup] at h
    split at h
    · next hsucceeded =>
      cases h
      rw [Table.eq_of_key hjob hold hsame.symm, hsucceeded]
      decide
    · next hopen =>
      cases hbuilt : given.built with
      | error error => simp [hbuilt] at h
      | ok result =>
        simp only [hbuilt, updating] at h
        cases hthrows : given.updateThrows with
        | some cause => simp [hthrows] at h
        | none =>
          simp only [hthrows] at h
          cases h
          have heq := Table.eq_of_mem_update _ hold hjob hsame.symm
          rw [if_pos (by simp [hsame, hopen])] at heq
          simp [heq, ExportJob.succeed]

/-- A hook that ends without an error leaves the event's job settled. -/
theorem not_queued_of_settleExport {event : OutboxRow} {now : Nat} {given : ExportGiven P}
    {jobs jobs' : ExportJobs P} (h : settleExport event now given jobs = (jobs', none))
    {job : ExportJob P} (hjob : job ∈ jobs') (hid : event.exportId = some job.id) :
    job.state ≠ .queued := by
  simp only [settleExport, exportIdOf, hid, updating] at h
  cases hthrows : given.updateThrows with
  | some cause => simp [hthrows] at h
  | none =>
    simp only [hthrows] at h
    cases h
    obtain ⟨old, hold, hkey, -⟩ := Table.exists_of_mem_update _ hjob
    intro hqueued
    rw [Table.eq_of_mem_update _ hold hjob hkey.symm] at hqueued
    split at hqueued
    · cases hqueued
    · next hout => exact hout (by simp [hkey, hqueued])

/-- What the hook makes of a queued job. -/
theorem exists_failed_of_settleExport {event : OutboxRow} {now : Nat} {given : ExportGiven P}
    {jobs : ExportJobs P} (hquiet : given.updateThrows = none) {job : ExportJob P}
    (hjob : job ∈ jobs) (hid : event.exportId = some job.id) (hqueued : job.state = .queued) :
    (settleExport event now given jobs).2 = none ∧
      job.fail now ∈ (settleExport event now given jobs).1 := by
  simp only [settleExport, exportIdOf, hid, updating, hquiet, true_and]
  refine (Table.mem_update _).mpr ⟨job, hjob, ?_⟩
  rw [if_pos (by simp [hqueued])]

/-- A job an update does not select stays as it is, whether or not it takes effect. -/
theorem mem_updating {given : ExportGiven P} {jobs : ExportJobs P} {selected : ExportJob P → Bool}
    {change : ExportJob P → ExportJob P} {keeps : ∀ job, (change job).id = job.id}
    {job : ExportJob P} (hjob : job ∈ jobs) (hout : selected job = false) :
    job ∈ (updating given jobs (jobs.update selected change keeps)).1 := by
  have hupdated : job ∈ jobs.update selected change keeps :=
    (Table.mem_update keeps).mpr ⟨job, hjob, by simp [hout]⟩
  unfold updating
  split
  · exact hupdated
  · next applied error _ =>
    cases applied
    · exact hjob
    · exact hupdated

/-- The hook leaves the jobs of other events alone. -/
theorem mem_settleExport_of_ne {event : OutboxRow} (now : Nat) (given : ExportGiven P)
    {jobs : ExportJobs P} {job : ExportJob P} (hjob : job ∈ jobs)
    (hne : event.exportId ≠ some job.id) : job ∈ (settleExport event now given jobs).1 := by
  unfold settleExport exportIdOf
  cases hid : event.exportId with
  | none => exact hjob
  | some exportId =>
    have hother : ¬ job.id = exportId := fun heq => hne (by rw [hid, heq])
    exact mem_updating hjob (by simp [hother])

/-- So do the consumers. -/
theorem mem_handle_of_ne {handler : OutboxHandler (ExportJobs P) (ExportGiven P)}
    (hmem : handler ∈ buildOutboxHandlers) {event : OutboxRow} (now : Nat) (given : ExportGiven P)
    {jobs : ExportJobs P} {job : ExportJob P} (hjob : job ∈ jobs)
    (hne : event.eventType = exportRequested → event.exportId ≠ some job.id)
    (haccepts : handler.accepts event.eventType = true) :
    job ∈ (handler.handle event now given jobs).1 := by
  rcases List.mem_pair.mp hmem with rfl | rfl
  · exact hjob
  · have hother := hne (of_decide_eq_true haccepts)
    simp only [projectExportHandler, exportIdOf]
    cases hid : event.exportId with
    | none => exact hjob
    | some exportId =>
      have hout : ¬ job.id = exportId := fun heq => hother (by rw [hid, heq])
      simp only [buildProjectExport]
      split
      · exact hjob
      · exact hjob
      · split
        · exact hjob
        · split
          · exact hjob
          · exact mem_updating hjob (by simp [hout])

end MpcRegistry.Outbox
