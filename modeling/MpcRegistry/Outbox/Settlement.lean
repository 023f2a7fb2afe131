import MpcRegistry.Outbox.ProjectExport

/-!
# Export events and their jobs

What every run of the publishing workers and replay commands keeps of the export
jobs: each export event has its job, an inbox row of the export consumer means
its job is settled, and what a replay has read has been given up or published.
-/
namespace MpcRegistry.Outbox
open Library Processes

variable {W P : Type}

/-! ## Events and their jobs -/

def exportKey : Text := handlerKey (projectExportHandler (P := Unit))

/-- An event that has been neither given up, published nor replayed. -/
def OutboxRow.Untouched (row : OutboxRow) : Prop :=
  row.pending = true ∧ row.skipHandlers = [] ∧ row.replayedAt = none

/-- An event that has been given up, published or replayed. -/
def Db.Stale {J : Type} (db : Db J) (id : Uuid) : Prop :=
  ∃ row ∈ db.outbox, row.id = id ∧ ¬ row.Untouched

/-- The job of an event is no longer queued. -/
def Db.Closed (db : Db (ExportJobs P)) (event : OutboxRow) : Prop :=
  ∀ job ∈ db.consumers, event.exportId = some job.id → job.state ≠ .queued

/-- Every export event has its job, and one with an inbox row has settled it. -/
structure Db.Linked (db : Db (ExportJobs P)) : Prop where
  known : ∀ row ∈ db.outbox, row.eventType = exportRequested →
    ∃ job ∈ db.consumers, row.exportId = some job.id
  entries : ∀ entry ∈ db.inbox, ∃ row ∈ db.outbox, row.id = entry.eventId
  closed : ∀ row ∈ db.outbox, row.eventType = exportRequested →
    InboxRow.mk row.id exportKey ∈ db.inbox → db.Closed row

/-- What a process relies on about exports at each point. -/
def ExportRelies (_ : W) (db : Db (ExportJobs P)) :
    Point (ExportJobs P) (ExportGiven P) → Prop
  | .recording claim handler _ => handlerKey handler = exportKey →
      claim.row.eventType = exportRequested ∧ db.Closed claim.row
  | .settling _ row rest => (∃ row' ∈ db.outbox, row'.SameEvent row) ∧
      ∀ handler ∈ rest, handler ∈ relevant buildOutboxHandlers row
  | .hooking _ row hook rest => hook = settleExport ∧ row.eventType = exportRequested ∧
      (∃ row' ∈ db.outbox, row'.SameEvent row) ∧
      ∀ handler ∈ rest, handler ∈ relevant buildOutboxHandlers row
  | .planning _ done rest => (∀ item ∈ done, db.Stale item.eventId) ∧
      ∀ row ∈ rest, db.Stale row.id
  | .replaying _ _ done rest => ∀ item ∈ done ++ rest, db.Stale item.eventId
  | _ => True

theorem log_ne_exportKey : units "log" ++ units "@" ++ units "1" ≠ exportKey := by
  decide

theorem eq_projectExportHandler {handler : OutboxHandler (ExportJobs P) (ExportGiven P)}
    (hmem : handler ∈ buildOutboxHandlers) (hkey : handlerKey handler = exportKey) :
    handler = projectExportHandler := by
  rcases List.mem_pair.mp hmem with rfl | rfl
  · exact absurd hkey log_ne_exportKey
  · rfl

/-- Only the export consumer registers a hook. -/
theorem eq_settleExport {handler : OutboxHandler (ExportJobs P) (ExportGiven P)}
    {hook : OutboxRow → Nat → ExportGiven P → ExportJobs P → ExportJobs P × Option Thrown}
    (hmem : handler ∈ buildOutboxHandlers) (registered : handler.onDeadLetter = some hook) :
    handler = projectExportHandler ∧ hook = settleExport := by
  rcases List.mem_pair.mp hmem with rfl | rfl
  · cases registered
  · cases registered
    exact ⟨rfl, rfl⟩

theorem mem_relevant {handler : OutboxHandler (ExportJobs P) (ExportGiven P)} {event : OutboxRow} :
    handler ∈ relevant buildOutboxHandlers event ↔ handler ∈ buildOutboxHandlers ∧
      handler.accepts event.eventType = true ∧ handler.name ∉ event.skipHandlers := by
  simp [relevant, List.mem_filter]

theorem projectExportHandler_mem_relevant {event : OutboxRow} :
    projectExportHandler (P := P) ∈ relevant buildOutboxHandlers event ↔
      event.eventType = exportRequested ∧ units "project_export" ∉ event.skipHandlers := by
  rw [mem_relevant]
  simp [projectExportHandler, buildOutboxHandlers]

/-- A table that lost no job and queued none anew. -/
theorem Db.Closed.of_jobsEvolve {db db' : Db (ExportJobs P)} {event : OutboxRow}
    (h : db.Closed event) (evolve : JobsEvolve db.consumers db'.consumers) : db'.Closed event :=
  fun job hjob hid hqueued => h job (evolve.queued job hjob hqueued) hid hqueued

/-! ## What a step does to them -/

section Steps

variable {limit maxAttempts backoffMs : W → Nat} {w : W} {locked : Uuid → Bool}
  {db db' : Db (ExportJobs P)} {given : Given (ExportGiven P)}
  {p q : Point (ExportJobs P) (ExportGiven P)}

/-- A handler still to come is one of the event's. -/
theorem Claimed.mem_relevant {claim : Claim}
    {rest : List (OutboxHandler (ExportJobs P) (ExportGiven P))}
    (h : Claimed (exports limit maxAttempts backoffMs) w db claim rest)
    {handler : OutboxHandler (ExportJobs P) (ExportGiven P)} (hmem : handler ∈ rest) :
    handler ∈ relevant buildOutboxHandlers claim.row := by
  obtain ⟨done, hsplit, -⟩ := h.recorded
  have hrelevant : relevant buildOutboxHandlers claim.row = done ++ rest := hsplit
  rw [hrelevant]
  exact List.mem_append_right _ hmem

theorem Point.Moves.jobsEvolve
    (h : Moves (exports limit maxAttempts backoffMs) w locked db given p db' q)
    (before : Relies (exports limit maxAttempts backoffMs) w db p) (relies : ExportRelies w db p) :
    JobsEvolve db.consumers db'.consumers := by
  cases h with
  | handled claim handler rest consumers ran =>
    have hmem := before.1.mem_relevant List.mem_cons_self
    have hevolve := jobsEvolve_handle handler (Outbox.mem_relevant.mp hmem).1 claim.row db.now
      given.consumer db.consumers
    rwa [ran] at hevolve
  | handlerThrew claim handler rest consumers error ran =>
    have hmem := before.1.mem_relevant List.mem_cons_self
    have hevolve := jobsEvolve_handle handler (Outbox.mem_relevant.mp hmem).1 claim.row db.now
      given.consumer db.consumers
    rwa [ran] at hevolve
  | hooked handled row rest hook consumers ran =>
    obtain ⟨rfl, -⟩ := relies
    have hevolve := jobsEvolve_settleExport row db.now given.consumer db.consumers
    rwa [ran] at hevolve
  | hookThrew handled row rest hook consumers error ran =>
    obtain ⟨rfl, -⟩ := relies
    have hevolve := jobsEvolve_settleExport row db.now given.consumer db.consumers
    rwa [ran] at hevolve
  | _ => exact .refl _

theorem Db.exists_of_mem_updateRow {J : Type} {db : Db J} {selected : Uuid → Bool}
    {change : OutboxRow → OutboxRow} {keeps : ∀ row, (change row).id = row.id} {row' : OutboxRow}
    (hrow' : row' ∈ (db.updateRow selected change keeps).outbox)
    (hsame : ∀ row, (change row).SameEvent row) : ∃ row ∈ db.outbox, row'.SameEvent row := by
  obtain ⟨row, hrow, -, rfl | ⟨-, rfl⟩⟩ := Table.exists_of_mem_update keeps hrow'
  · exact ⟨_, hrow, .refl _⟩
  · exact ⟨row, hrow, hsame row⟩

/-- Of the events there are, a step inserts none. -/
theorem Point.Moves.exists_before {J ι : Type} {D : Deployment W J ι} {db db' : Db J}
    {given : Given ι} {p q : Point J ι} (h : Moves D w locked db given p db' q) {row' : OutboxRow}
    (hrow' : row' ∈ db'.outbox) : ∃ row ∈ db.outbox, row'.SameEvent row := by
  cases h with
  | published => exact Db.exists_of_mem_updateRow hrow' fun _ => ⟨rfl, rfl, rfl, rfl, rfl⟩
  | failed => exact Db.exists_of_mem_updateRow hrow' fun _ => ⟨rfl, rfl, rfl, rfl, rfl⟩
  | deadLettered => exact Db.exists_of_mem_updateRow hrow' fun _ => ⟨rfl, rfl, rfl, rfl, rfl⟩
  | replayed => exact Db.exists_of_mem_updateRow hrow' fun _ => ⟨rfl, rfl, rfl, rfl, rfl⟩
  | _ => exact ⟨row', hrow', .refl _⟩

/-- An inbox row a step adds is of the handler it ran. -/
theorem Point.Moves.entry {J ι : Type} {D : Deployment W J ι} {db db' : Db J}
    {given : Given ι} {p q : Point J ι} (h : Moves D w locked db given p db' q) {entry : InboxRow}
    (hentry : entry ∈ db'.inbox) : entry ∈ db.inbox ∨ ∃ claim handler rest,
      p = .recording claim handler rest ∧ entry = ⟨claim.row.id, handlerKey handler⟩ := by
  cases h with
  | recorded claim handler rest =>
    rcases Table.mem_insertIfAbsent.mp hentry with hold | ⟨rfl, -⟩
    · exact .inl hold
    · exact .inr ⟨claim, handler, rest, rfl, rfl⟩
  | _ => exact .inl hentry

/-- What has been given up, published or replayed stays so. -/
theorem Point.Moves.stale {J ι : Type} {D : Deployment W J ι} {db db' : Db J} {given : Given ι}
    {p q : Point J ι} (h : Moves D w locked db given p db' q) (before : Relies D w db p) {id : Uuid}
    (stale : db.Stale id) : db'.Stale id := by
  obtain ⟨row, hrow, rfl, htouched⟩ := stale
  obtain ⟨row', hrow', hsame⟩ := h.changesOnly.events row hrow
  refine ⟨row', hrow', hsame.1, fun huntouched => ?_⟩
  obtain ⟨hpending, hskip, hreplayed⟩ := huntouched
  cases h.rowAfter before hrow hrow' hsame.1 with
  | same => exact htouched ⟨hpending, hskip, hreplayed⟩
  | published => simp [OutboxRow.pending, OutboxRow.publish] at hpending
  | failed claim error locked pending => exact htouched ⟨pending, hskip, hreplayed⟩
  | deadLettered => simp [OutboxRow.pending, OutboxRow.fail] at hpending
  | replayed => cases hreplayed

theorem Db.stale_of_mem_replayCandidates {J : Type} {db : Db J} {selection : ReplaySelection}
    {row : OutboxRow} (h : row ∈ db.replayCandidates selection) : db.Stale row.id := by
  have hmem := List.mem_of_mem_take h
  rw [List.mem_insertionSort, List.mem_filter] at hmem
  refine ⟨row, hmem.1, rfl, fun huntouched => ?_⟩
  obtain ⟨hpublished, hdead⟩ := OutboxRow.pending_iff.mp huntouched.1
  simp [ReplaySelection.selects, hpublished, hdead] at hmem

theorem Point.Moves.linked
    (h : Moves (exports limit maxAttempts backoffMs) w locked db given p db' q)
    (before : Relies (exports limit maxAttempts backoffMs) w db p) (relies : ExportRelies w db p)
    (linked : db.Linked) : db'.Linked where
  known row' hrow' htype := by
    obtain ⟨row, hrow, -, -, hsame, hexport, -⟩ := h.exists_before hrow'
    obtain ⟨job, hjob, hid⟩ := linked.known row hrow (hsame ▸ htype)
    obtain ⟨job', hjob', hkey⟩ := (h.jobsEvolve before relies).kept job hjob
    exact ⟨job', hjob', by rw [hexport, hid, hkey]⟩
  entries entry hentry := by
    rcases h.entry hentry with hold | ⟨claim, handler, rest, rfl, rfl⟩
    · obtain ⟨row, hrow, hid⟩ := linked.entries entry hold
      obtain ⟨row', hrow', hsame⟩ := h.changesOnly.events row hrow
      exact ⟨row', hrow', hsame.1.trans hid⟩
    · obtain ⟨row', hrow', hsame⟩ := h.changesOnly.events _ before.row
      exact ⟨row', hrow', hsame.1⟩
  closed row' hrow' htype hentry := by
    obtain ⟨row, hrow, hkey, -, hsame, hexport, -⟩ := h.exists_before hrow'
    have hclosed : db.Closed row := by
      rcases h.entry hentry with hold | ⟨claim, handler, rest, rfl, heq⟩
      · exact linked.closed row hrow (hsame ▸ htype) (hkey ▸ hold)
      · obtain ⟨hid, hhandler⟩ := InboxRow.mk.inj heq
        have hrow' : row = claim.row := Table.eq_of_key hrow before.row (hkey.symm.trans hid)
        rw [hrow']
        exact (relies hhandler.symm).2
    intro job hjob hid
    exact hclosed.of_jobsEvolve (h.jobsEvolve before relies) job hjob (hexport ▸ hid)

/-- What a process relies on after its own step. -/
theorem Point.Moves.exportRelies
    (h : Moves (exports limit maxAttempts backoffMs) w locked db given p db' q)
    (before : Relies (exports limit maxAttempts backoffMs) w db p) (relies : ExportRelies w db p)
    (linked : db.Linked) : ExportRelies w db' q := by
  cases h with
  | selected selection options asked =>
    exact ⟨by simp, fun row hrow => Db.stale_of_mem_replayCandidates hrow⟩
  | handled claim handler rest consumers ran =>
    intro hkey
    have hrelevant := Outbox.mem_relevant.mp (before.1.mem_relevant List.mem_cons_self)
    obtain rfl := eq_projectExportHandler hrelevant.1 hkey
    have htype : claim.row.eventType = exportRequested := of_decide_eq_true hrelevant.2.1
    obtain ⟨old, hold, hid⟩ := linked.known _ before.1.row htype
    refine ⟨htype, fun job hjob hjobid => ?_⟩
    rw [hjobid, Option.some.injEq] at hid
    exact not_queued_of_handle ran hjob hjobid ⟨old, hold, hid.symm⟩
  | deadLettered claim error exhausted =>
    have hmoves : Moves (exports limit maxAttempts backoffMs) w locked db given _ _ _ :=
      .deadLettered claim error exhausted
    exact ⟨hmoves.changesOnly.events _ before.1, fun handler hmem => hmem⟩
  | passed handled row handler rest nothing =>
    exact ⟨relies.1, fun handler hmem => relies.2 handler (List.mem_cons_of_mem _ hmem)⟩
  | hooking handled row handler rest hook registered =>
    have hrelevant := Outbox.mem_relevant.mp (relies.2 handler List.mem_cons_self)
    obtain ⟨rfl, rfl⟩ := eq_settleExport hrelevant.1 registered
    exact ⟨rfl, of_decide_eq_true hrelevant.2.1, relies.1,
      fun handler hmem => relies.2 handler (List.mem_cons_of_mem _ hmem)⟩
  | hooked handled row rest hook consumers ran => exact relies.2.2
  | planned options done row rest =>
    refine ⟨fun item hitem => ?_, fun row hrow => relies.2 row (List.mem_cons_of_mem _ hrow)⟩
    rcases List.mem_append.mp hitem with hitem | hitem
    · exact relies.1 item hitem
    · rw [List.mem_singleton.mp hitem]
      exact relies.2 row List.mem_cons_self
  | applying options done =>
    intro item hitem
    exact relies.1 item (by simpa using hitem)
  | locked options startedAt done item rest =>
    intro other hother
    exact relies other (by simpa using hother)
  | _ => trivial

/-- What is relied on about exports survives what keeps events, stale rows and
settled jobs. -/
theorem ExportRelies.mono (h : ExportRelies w db p)
    (before : Relies (exports limit maxAttempts backoffMs) w db p)
    (events : ∀ row ∈ db.outbox, ∃ row' ∈ db'.outbox, row'.SameEvent row)
    (stale : ∀ id, db.Stale id → db'.Stale id)
    (closed : ∀ row ∈ db.outbox, row.eventType = exportRequested → db.Closed row → db'.Closed row) :
    ExportRelies w db' p := by
  have hevent : ∀ {row : OutboxRow}, (∃ row' ∈ db.outbox, row'.SameEvent row) →
      ∃ row' ∈ db'.outbox, row'.SameEvent row := by
    rintro row ⟨row', hrow', hsame⟩
    obtain ⟨row'', hrow'', hsame'⟩ := events row' hrow'
    exact ⟨row'', hrow'', hsame'.trans hsame⟩
  cases p with
  | recording claim handler rest =>
    intro hkey
    obtain ⟨htype, hclosed⟩ := h hkey
    exact ⟨htype, closed _ before.row htype hclosed⟩
  | settling handled row rest => exact ⟨hevent h.1, h.2⟩
  | hooking handled row hook rest => exact ⟨h.1, h.2.1, hevent h.2.2.1, h.2.2.2⟩
  | planning options done rest =>
    exact ⟨fun item hitem => stale _ (h.1 item hitem), fun row hrow => stale _ (h.2 row hrow)⟩
  | replaying options startedAt done rest => exact fun item hitem => stale _ (h item hitem)
  | _ => trivial

/-- What a request of the API can do. -/
inductive Requested (db : Db (ExportJobs P)) (elapsed : Nat) : Db (ExportJobs P) → Prop where
  | event (event : DomainEvent) (other : event.eventType ≠ exportRequested)
      (fresh : ∀ row ∈ db.outbox, row.id ≠ event.id) :
      Requested db elapsed
        { db with outbox := db.outbox.insertIfAbsent (event.row db.now), now := db.now + elapsed }
  | projectExport (job : ExportJob P) (event : DomainEvent) (queued : job.state = .queued)
      (export' : event.eventType = exportRequested) (linked : event.exportId = some job.id)
      (unknown : ∀ old ∈ db.consumers, old.id ≠ job.id)
      (fresh : ∀ row ∈ db.outbox, row.id ≠ event.id) :
      Requested db elapsed
        { db with
          consumers := db.consumers.insertIfAbsent job
          outbox := db.outbox.insertIfAbsent (event.row db.now)
          now := db.now + elapsed }

theorem Db.eq_of_request_single {J : Type} {db db' : Db J} {consumers : J} {event : DomainEvent}
    (h : db.request consumers [event] = some db') : (∀ row ∈ db.outbox, row.id ≠ event.id) ∧
      db' = { db with consumers, outbox := db.outbox.insertIfAbsent (event.row db.now) } := by
  simp only [request] at h
  split at h
  · cases h
  · next hfresh =>
    cases h
    exact ⟨fun row hrow hid => hfresh ⟨row, hrow, hid⟩, rfl⟩

theorem requested_of_arrive (h : arrive (exports limit maxAttempts backoffMs) db given = some db') :
    Requested db given.elapsed db' := by
  obtain ⟨db₁, hrequest, rfl⟩ := Option.map_eq_some_iff.mp h
  obtain ⟨⟨consumers, events⟩, hapi, hrequest⟩ := Option.bind_eq_some_iff.mp hrequest
  simp only [exports, apiRequest] at hapi
  split at hapi
  · next id eventId tenantId projectId subjectId clearance hrequested =>
    split at hapi
    · cases hapi
    · next hunknown =>
      cases hapi
      obtain ⟨hfresh, rfl⟩ := Db.eq_of_request_single hrequest
      refine .projectExport _ _ rfl rfl rfl (fun old hold hid => hunknown ?_) hfresh
      rw [Table.lookup_eq_some.mpr ⟨hold, hid⟩]
      rfl
  · next event hrequested =>
    split at hapi
    · cases hapi
    · next hother =>
      cases hapi
      obtain ⟨hfresh, rfl⟩ := Db.eq_of_request_single hrequest
      exact .event event hother hfresh

/-- A request settles no job and reopens none. -/
theorem Requested.closed {elapsed : Nat} (h : Requested db elapsed db') (linked : db.Linked)
    {row : OutboxRow} (hrow : row ∈ db.outbox) (htype : row.eventType = exportRequested)
    (hclosed : db.Closed row) : db'.Closed row := by
  cases h with
  | event => exact hclosed
  | projectExport job event queued export' hlinked unknown fresh =>
    intro job' hjob' hid
    rcases Table.mem_insertIfAbsent.mp hjob' with hold | ⟨rfl, -⟩
    · exact hclosed job' hold hid
    · obtain ⟨old, hold, hknown⟩ := linked.known row hrow htype
      rw [hknown, Option.some.injEq] at hid
      exact absurd hid (unknown old hold)

theorem Requested.linked {elapsed : Nat} (h : Requested db elapsed db') (linked : db.Linked) :
    db'.Linked := by
  have hentry : ∀ {event : DomainEvent} {key : Text}, (∀ row ∈ db.outbox, row.id ≠ event.id) →
      InboxRow.mk event.id key ∉ db.inbox := by
    intro event key hfresh hin
    obtain ⟨row, hrow, hid⟩ := linked.entries _ hin
    exact hfresh row hrow hid
  have hclosed : ∀ row ∈ db.outbox, row.eventType = exportRequested → db.Closed row →
      db'.Closed row := fun row hrow htype => h.closed linked hrow htype
  cases h with
  | event event other fresh =>
    constructor
    case known =>
      intro row hrow htype
      rcases Table.mem_insertIfAbsent.mp hrow with hrow | ⟨rfl, -⟩
      · exact linked.known row hrow htype
      · exact absurd htype other
    case entries =>
      intro entry hin
      obtain ⟨row, hrow, hid⟩ := linked.entries entry hin
      exact ⟨row, Table.mem_insertIfAbsent_of_mem hrow, hid⟩
    case closed =>
      intro row hrow htype hin
      rcases Table.mem_insertIfAbsent.mp hrow with hrow | ⟨rfl, -⟩
      · exact linked.closed row hrow htype hin
      · exact absurd htype other
  | projectExport job event queued export' hlinked unknown fresh =>
    constructor
    case known =>
      intro row hrow htype
      rcases Table.mem_insertIfAbsent.mp hrow with hrow | ⟨rfl, -⟩
      · obtain ⟨old, hold, hid⟩ := linked.known row hrow htype
        exact ⟨old, Table.mem_insertIfAbsent_of_mem hold, hid⟩
      · exact ⟨job, Table.mem_insertIfAbsent.mpr (.inr ⟨rfl, unknown⟩), hlinked⟩
    case entries =>
      intro entry hin
      obtain ⟨row, hrow, hid⟩ := linked.entries entry hin
      exact ⟨row, Table.mem_insertIfAbsent_of_mem hrow, hid⟩
    case closed =>
      intro row hrow htype hin
      rcases Table.mem_insertIfAbsent.mp hrow with hrow | ⟨rfl, -⟩
      · exact hclosed row hrow htype (linked.closed row hrow htype hin)
      · exact absurd hin (hentry fresh)

end Steps

end MpcRegistry.Outbox
