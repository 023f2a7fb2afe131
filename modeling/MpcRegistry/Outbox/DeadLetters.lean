import MpcRegistry.Outbox.Settlement

/-!
# Settling the job of a dead-lettered event

The hook of the export consumer runs after the commit that gives its event up.
A worker that stops between the two commits, or a hook whose statement throws,
leaves the job queued, and the publisher never takes the event up again. In every
run in which neither happens to an open job, a dead-lettered event's job can
still be settled by the publisher alone.
-/
namespace MpcRegistry.Outbox
open Library Processes

variable {W P : Type}

abbrev ExportWorkers (W P : Type) := State W (Db (ExportJobs P)) (Point (ExportJobs P) (ExportGiven P))

abbrev ExportAction (W P : Type) := Action W (Given (ExportGiven P))

section Run

variable [DecidableEq W] (limit maxAttempts backoffMs : W → Nat)

abbrev exportSystem : System (ExportWorkers W P) (ExportAction W P) :=
  outboxSystem (exports limit maxAttempts backoffMs)

omit [DecidableEq W] in
theorem exports_maintain
    (ok : ExportWorkers W P → ExportAction W P → Prop) :
    (program (exports limit maxAttempts backoffMs)).Maintains
      (fun s a => ok s a ∧ (program (exports limit maxAttempts backoffMs)).Sound Db.Apart
        (Relies (exports limit maxAttempts backoffMs)) s)
      Db.Linked (ExportRelies (P := P)) where
  idle _ _ _ := trivial
  own s w input locked db q h allowed ran := by
    have hmoves := Point.moves_of_next ran
    have before := allowed.2.relies w
    exact ⟨hmoves.linked before (h.relies w) h.store,
      hmoves.exportRelies before (h.relies w) h.store⟩
  stable s w v input locked db q h allowed hne ran := by
    have hmoves := Point.moves_of_next ran
    have before := allowed.2.relies w
    exact (h.relies v).mono (allowed.2.relies v) hmoves.changesOnly.events
      (fun id hid => hmoves.stale before hid) fun row hrow htype hclosed =>
        hclosed.of_jobsEvolve (hmoves.jobsEvolve before (h.relies w))
  outside s input db h allowed moved := by
    have hrequested := requested_of_arrive moved
    have hchange := changesOnly_arrive moved
    refine ⟨hrequested.linked h.store, fun w => ?_⟩
    refine (h.relies w).mono (allowed.2.relies w) hchange.events ?_ fun row hrow htype =>
      hrequested.closed h.store hrow htype
    rintro id ⟨row, hrow, hid, htouched⟩
    exact ⟨row, hchange.kept row hrow (by simp), hid, htouched⟩

omit [DecidableEq W] in
theorem exports_rule
    (ok : ExportWorkers W P → ExportAction W P → Prop) :
    (program (exports limit maxAttempts backoffMs)).Maintains ok
      (fun db => Db.Apart db ∧ Db.Linked (P := P) db)
      (fun w db p => Relies (exports limit maxAttempts backoffMs) w db p ∧ ExportRelies w db p) :=
  (outbox_maintains _ ok).and (exports_maintain limit maxAttempts backoffMs ok)

/-- What both layers give of a state. -/
abbrev ExportSound (s : ExportWorkers W P) : Prop :=
  (program (exports limit maxAttempts backoffMs)).Sound
    (fun db => Db.Apart db ∧ Db.Linked (P := P) db)
    (fun w db p => Relies (exports limit maxAttempts backoffMs) w db p ∧ ExportRelies w db p) s

/-- The process still has the export's job to settle. -/
def Point.Settles (exportId : Uuid) : Point (ExportJobs P) (ExportGiven P) → Prop
  | settling _ row rest => row.exportId = some exportId ∧ projectExportHandler ∈ rest
  | hooking _ row _ _ => row.exportId = some exportId
  | _ => False

/-- The process has given up an event whose job is queued, and has not settled it. -/
def Owes (s : ExportWorkers W P) (w : W) : Prop :=
  ∃ job ∈ s.store.consumers, job.state = .queued ∧ (s.point w).Settles job.id

/-- The round of hooks ends here, without the hook's update. -/
def Point.Interrupted (given : Given (ExportGiven P)) :
    Point (ExportJobs P) (ExportGiven P) → Prop
  | settling _ _ _ => given.thrown ≠ none
  | hooking _ _ _ _ => ∃ error, given.consumer.updateThrows = some (false, error)
  | _ => False

/-- A process that owes a settlement neither stops nor fails at it. -/
def Uninterrupted (s : ExportWorkers W P) : ExportAction W P → Prop
  | .stop w => ¬ Owes s w
  | .step w given => Owes s w → ¬ (s.point w).Interrupted given
  | .outside _ => True

/-- What a publishing worker or the API does. -/
def Publishes : ExportAction W P → Prop
  | .step _ given => given.task = .publish
  | _ => True

/-- The publisher can still settle the queued job of every event given up. -/
def DeadLettersSettle (s : ExportWorkers W P) : Prop :=
  ∀ row ∈ s.store.outbox, row.eventType = exportRequested → row.deadLetteredAt ≠ none →
    ∀ job ∈ s.store.consumers, row.exportId = some job.id → job.state = .queued →
    ∃ labels t, (∀ a ∈ labels, Publishes a) ∧
      (exportSystem limit maxAttempts backoffMs).Run s labels t ∧
      ∃ job' ∈ t.store.consumers, job'.id = job.id ∧ job'.state = .failed

/-- A queued job has an event nothing has happened to, or a process about to settle it. -/
def Attended (s : ExportWorkers W P) : Prop :=
  ∀ row ∈ s.store.outbox, row.eventType = exportRequested →
    ∀ job ∈ s.store.consumers, row.exportId = some job.id → job.state = .queued →
    row.Untouched ∨ ∃ w, (s.point w).Settles job.id

variable {limit maxAttempts backoffMs} {s t : ExportWorkers W P} {a : ExportAction W P} {w : W}

/-- A job the hook leaves queued is one whose update did not take effect. -/
theorem unapplied_of_queued {event : OutboxRow} {now : Nat} {given : ExportGiven P}
    {jobs jobs' : ExportJobs P} {thrown : Option Thrown}
    (h : settleExport event now given jobs = (jobs', thrown)) {job : ExportJob P}
    (hjob : job ∈ jobs') (hid : event.exportId = some job.id) (hqueued : job.state = .queued) :
    ∃ error, given.updateThrows = some (false, error) ∧ thrown = some error := by
  cases hthrows : given.updateThrows with
  | none =>
    have hquiet : thrown = none := by
      simp only [settleExport, exportIdOf, hid, updating, hthrows] at h
      exact (Prod.mk.inj h).2.symm
    exact absurd hqueued (not_queued_of_settleExport (hquiet ▸ h) hjob hid)
  | some cause =>
    obtain ⟨applied, error⟩ := cause
    simp only [settleExport, exportIdOf, hid, updating, hthrows] at h
    obtain ⟨hjobs, hthrown⟩ := Prod.mk.inj h
    cases applied with
    | false => exact ⟨error, rfl, hthrown.symm⟩
    | true =>
      have happlied : settleExport event now { given with updateThrows := none } jobs =
          (jobs', none) := by
        simp only [settleExport, exportIdOf, hid, updating]
        rw [← hjobs]
        rfl
      exact absurd hqueued (not_queued_of_settleExport happlied hjob hid)

omit [DecidableEq W] in
/-- A process that owes a settlement owes it until the hook's update takes effect
or its round of hooks is interrupted. -/
theorem Point.Moves.settles {locked : Uuid → Bool} {db db' : Db (ExportJobs P)}
    {given : Given (ExportGiven P)} {p q : Point (ExportJobs P) (ExportGiven P)}
    (h : Moves (exports limit maxAttempts backoffMs) w locked db given p db' q)
    (relies : ExportRelies w db p) (linked : db.Linked) {job : ExportJob P}
    (hsettles : p.Settles job.id) (uninterrupted : ¬ p.Interrupted given)
    (hjob : job ∈ db'.consumers) (hqueued : job.state = .queued) : q.Settles job.id := by
  cases h with
  | left p free =>
    cases p with
    | settling handled row rest => exact absurd rfl (free handled row rest settleExport).1
    | hooking handled row hook rest => exact absurd rfl (free handled row rest hook).2
    | _ => cases hsettles
  | threw p claim error held =>
    cases p with
    | settling | hooking => cases held
    | _ => cases hsettles
  | settled handled row => cases hsettles.2
  | settleThrew handled row rest thrown => exact absurd thrown uninterrupted
  | passed handled row handler rest nothing =>
    obtain ⟨hid, hmem⟩ := hsettles
    rcases List.mem_cons.mp hmem with rfl | hmem
    · rcases nothing with hprocessed | hnone
      · obtain ⟨⟨row', hrow', hkey, -, htype, hexport, -⟩, hrelevant⟩ := relies
        have hentry : InboxRow.mk row'.id exportKey ∈ db.inbox :=
          hkey ▸ Db.mem_inbox_of_alreadyProcessed.mp hprocessed
        have haccepts := (projectExportHandler_mem_relevant.mp (hrelevant _ List.mem_cons_self)).1
        exact absurd hqueued
          (linked.closed row' hrow' (htype.trans haccepts) hentry job hjob (hexport.trans hid))
      · cases hnone
    · exact ⟨hid, hmem⟩
  | hooking handled row handler rest hook registered => exact hsettles.1
  | hooked handled row rest hook consumers ran =>
    obtain ⟨rfl, -⟩ := relies
    obtain ⟨error, -, hthrown⟩ := unapplied_of_queued ran hjob hsettles hqueued
    cases hthrown
  | hookThrew handled row rest hook consumers error ran =>
    obtain ⟨rfl, -⟩ := relies
    obtain ⟨error', hthrows, -⟩ := unapplied_of_queued ran hjob hsettles hqueued
    exact absurd ⟨error', hthrows⟩ uninterrupted
  | _ => cases hsettles

omit [DecidableEq W] in
/-- What becomes of an event nothing has happened to, as long as its job is queued. -/
theorem Point.Moves.untouched {locked : Uuid → Bool} {db db' : Db (ExportJobs P)}
    {given : Given (ExportGiven P)} {p q : Point (ExportJobs P) (ExportGiven P)}
    (h : Moves (exports limit maxAttempts backoffMs) w locked db given p db' q)
    (before : Relies (exports limit maxAttempts backoffMs) w db p) (relies : ExportRelies w db p)
    (linked : db.Linked) {row row' : OutboxRow} (hrow : row ∈ db.outbox)
    (hrow' : row' ∈ db'.outbox) (hid : row'.id = row.id) (htype : row.eventType = exportRequested)
    {job : ExportJob P} (hjob : job ∈ db.consumers) (hexport : row.exportId = some job.id)
    (hqueued : job.state = .queued) (huntouched : row.Untouched) :
    row'.Untouched ∨ q.Settles job.id := by
  obtain ⟨hpending, hskip, hreplayed⟩ := huntouched
  have hrelevant : projectExportHandler (P := P) ∈ relevant buildOutboxHandlers row :=
    projectExportHandler_mem_relevant.mpr ⟨htype, by simp [hskip]⟩
  cases h.rowAfter before hrow hrow' hid with
  | same => exact .inl ⟨hpending, hskip, hreplayed⟩
  | published claim point locked inbox =>
    subst point locked
    obtain ⟨done, hsplit, hdone⟩ := before.recorded
    have hmem : projectExportHandler (P := P) ∈ done := by
      have heq : relevant buildOutboxHandlers claim.row = done ++ [] := hsplit
      rwa [heq, List.append_nil] at hrelevant
    exact absurd hqueued (linked.closed _ hrow htype (hdone _ hmem) job hjob hexport)
  | failed claim error locked pending =>
    have hpublished := (OutboxRow.pending_iff.mp pending).1
    exact .inl ⟨OutboxRow.pending_iff.mpr ⟨hpublished, rfl⟩, hskip, hreplayed⟩
  | deadLettered claim error point locked exhausted =>
    subst point locked
    have hdead := (OutboxRow.pending_iff.mp hpending).2
    have hwritten : db.outbox ≠ db'.outbox := fun heq => by
      rw [← Table.eq_of_key (heq ▸ hrow') hrow hid] at hdead
      cases hdead
    cases h with
    | failed claim error more => exact absurd exhausted (Nat.not_le.mpr more)
    | deadLettered claim error exhausted => exact .inr ⟨hexport, hrelevant⟩
    | left => exact absurd rfl hwritten
    | threw => exact absurd rfl hwritten
  | replayed options startedAt done point member =>
    subst point
    obtain ⟨item, hitem, hitemid⟩ := List.mem_map.mp member
    obtain ⟨stale, hstale, hkey, htouched⟩ := relies item (List.mem_append_left _ hitem)
    rw [Table.eq_of_key hstale hrow (hkey.trans hitemid)] at htouched
    exact absurd ⟨hpending, hskip, hreplayed⟩ htouched

omit [DecidableEq W] in
theorem Requested.attended {elapsed : Nat} {db : Db (ExportJobs P)}
    (h : Requested s.store elapsed db) (linked : s.store.Linked) (attended : Attended s) :
    Attended (W := W) { s with store := db } := by
  intro row hrow htype job hjob hid hqueued
  have hnew : ∀ event : DomainEvent, row = event.row s.store.now →
      row.Untouched ∨ ∃ w, (s.point w).Settles job.id := by
    rintro event rfl
    exact .inl ⟨rfl, rfl, rfl⟩
  cases h with
  | event event other fresh =>
    rcases Table.mem_insertIfAbsent.mp hrow with hrow | ⟨rfl, -⟩
    · exact attended row hrow htype job hjob hid hqueued
    · exact hnew event rfl
  | projectExport new event queued export' hlinked unknown fresh =>
    rcases Table.mem_insertIfAbsent.mp hrow with hrow | ⟨rfl, -⟩
    · obtain ⟨old, hold, hknown⟩ := linked.known row hrow htype
      have hsame : old.id = job.id := Option.some.inj (hknown.symm.trans hid)
      rcases Table.mem_insertIfAbsent.mp hjob with hjob | ⟨rfl, -⟩
      · exact attended row hrow htype job hjob hid hqueued
      · exact absurd hsame (unknown old hold)
    · exact hnew event rfl

theorem attended_step (sound : ExportSound limit maxAttempts backoffMs s) (attended : Attended s)
    (uninterrupted : Uninterrupted s a)
    (taken : (exportSystem limit maxAttempts backoffMs).step s a t) : Attended t := by
  cases taken with
  | stop w =>
    intro row hrow htype job hjob hid hqueued
    rcases attended row hrow htype job hjob hid hqueued with huntouched | ⟨v, hsettles⟩
    · exact .inl huntouched
    · have hv : v ≠ w := fun heq => uninterrupted ⟨job, hjob, hqueued, heq ▸ hsettles⟩
      exact .inr ⟨v, by simpa [hv] using hsettles⟩
  | outside moved => exact (requested_of_arrive moved).attended sound.store.2 attended
  | @step w given locked db q others ran free =>
    intro row' hrow' htype job hjob hid hqueued
    have hmoves := Point.moves_of_next ran
    obtain ⟨before, relies⟩ := sound.relies w
    obtain ⟨row, hrow, hkey, -, hsame, hexport, -⟩ := hmoves.exists_before hrow'
    rw [hsame] at htype
    rw [hexport] at hid
    have hold := (hmoves.jobsEvolve before relies).queued job hjob hqueued
    rcases attended row hrow htype job hold hid hqueued with huntouched | ⟨v, hsettles⟩
    · rcases hmoves.untouched before relies sound.store.2 hrow hrow' hkey htype hold hid hqueued
        huntouched with huntouched | hsettles
      · exact .inl huntouched
      · exact .inr ⟨w, by simpa using hsettles⟩
    · by_cases hv : v = w
      · subst hv
        have hnext := hmoves.settles relies sound.store.2 hsettles
          (uninterrupted ⟨job, hold, hqueued, hsettles⟩) hjob hqueued
        exact .inr ⟨v, by simpa using hnext⟩
      · exact .inr ⟨v, by simpa [hv] using hsettles⟩

/-- Nothing throws. -/
def calm : Given (ExportGiven P) where
  task := .publish
  thrown := none
  consumer :=
    { request := .event ⟨0, 0, [], none⟩
      selectThrows := none
      built := .error (.other [])
      updateThrows := none }
  elapsed := 0

/-- The state after a step of one process. -/
abbrev after (s : ExportWorkers W P)
    (db : Db (ExportJobs P)) (w : W) (q : Point (ExportJobs P) (ExportGiven P)) :
    ExportWorkers W P :=
  { store := db, point := Function.update s.point w q }

/-- A hook that runs settles its job. -/
theorem exists_failed_of_hooking {handled : List Uuid} {row : OutboxRow}
    {rest : List (OutboxHandler (ExportJobs P) (ExportGiven P))} {job : ExportJob P}
    (hpoint : s.point w = .hooking handled row settleExport rest)
    (hid : row.exportId = some job.id) (hjob : job ∈ s.store.consumers)
    (hqueued : job.state = .queued) :
    ∃ t, (exportSystem limit maxAttempts backoffMs).step s (.step w calm) t ∧
      ∃ job' ∈ t.store.consumers, job'.id = job.id ∧ job'.state = .failed := by
  obtain ⟨hquiet, hmem⟩ :
      (settleExport row s.store.now calm.consumer s.store.consumers).2 = none ∧
        job.fail s.store.now ∈ (settleExport row s.store.now calm.consumer s.store.consumers).1 :=
    exists_failed_of_settleExport rfl hjob hid hqueued
  have hran : ∀ locked, Point.next (exports limit maxAttempts backoffMs) w locked s.store
      (s.point w) calm = some ({ s.store with consumers :=
        (settleExport row s.store.now (calm (P := P)).consumer s.store.consumers).1 },
        .settling handled row rest) := by
    intro locked
    rw [hpoint]
    simp only [Point.next]
    split
    · next consumers hran => rw [hran]
    · next consumers error hran =>
      rw [hran] at hquiet
      cases hquiet
  refine ⟨after s _ w _, Program.step_of_next hran rfl, job.fail s.store.now, hmem, rfl, rfl⟩

/-- A process that owes a settlement can make it, whatever the others do. -/
theorem exists_failed_of_settles (sound : ExportSound limit maxAttempts backoffMs s)
    {job : ExportJob P} (hjob : job ∈ s.store.consumers) (hqueued : job.state = .queued)
    (hsettles : (s.point w).Settles job.id) :
    ∃ labels t, (∀ a ∈ labels, Publishes a) ∧
      (exportSystem limit maxAttempts backoffMs).Run s labels t ∧
      ∃ job' ∈ t.store.consumers, job'.id = job.id ∧ job'.state = .failed := by
  have hcalm : Publishes (.step w (calm (P := P))) := rfl
  have hrelies := (sound.relies w).2
  cases hpoint : s.point w with
  | hooking handled row hook rest =>
    rw [hpoint] at hrelies hsettles
    obtain ⟨rfl, -⟩ := hrelies
    obtain ⟨t, taken, hfailed⟩ := exists_failed_of_hooking hpoint hsettles hjob hqueued
    exact ⟨_, t, List.forall_mem_singleton.mpr hcalm, .single taken, hfailed⟩
  | settling handled row rest =>
    induction rest generalizing s with
    | nil =>
      rw [hpoint] at hsettles
      cases hsettles.2
    | cons handler rest ih =>
      -- The worker's next statement, by what it finds about the handler at the front.
      have hstep : ∀ q, (∀ locked, Point.next (exports limit maxAttempts backoffMs) w locked
          s.store (s.point w) calm = some (s.store, q)) → q.holds = [] →
          (exportSystem limit maxAttempts backoffMs).step s (.step w calm)
            (after s s.store w q) ∧ q.Settles job.id := by
        intro q hnext hfree
        have hmoves := Point.moves_of_next (hnext fun _ => false)
        refine ⟨Program.step_of_next hnext hfree, hmoves.settles hrelies sound.store.2 hsettles
          ?_ hjob hqueued⟩
        rw [hpoint]
        exact fun hthrown => hthrown rfl
      have hpass : (∀ locked, Point.next (exports limit maxAttempts backoffMs) w locked
          s.store (s.point w) calm = some (s.store, .settling handled row rest)) →
          ∃ labels t, (∀ a ∈ labels, Publishes a) ∧
            (exportSystem limit maxAttempts backoffMs).Run s labels t ∧
            ∃ job' ∈ t.store.consumers, job'.id = job.id ∧ job'.state = .failed := by
        intro hnext
        obtain ⟨taken, hstill⟩ := hstep _ hnext rfl
        have hsound := (exports_rule limit maxAttempts backoffMs fun _ _ => True).step sound
          trivial taken
        obtain ⟨labels, t, hpublish, run, hfailed⟩ := ih hsound hjob (by simpa using hstill)
          (hsound.relies w).2 (by simp)
        exact ⟨[.step w calm] ++ labels, t, by simpa [hcalm] using hpublish,
          (System.Run.single taken).append run, hfailed⟩
      by_cases hprocessed : s.store.alreadyProcessed row.id (handlerKey handler) = true
      · refine hpass fun locked => ?_
        rw [hpoint]
        simp [Point.next, calm, hprocessed]
      · cases hregistered : handler.onDeadLetter with
        | none =>
          refine hpass fun locked => ?_
          rw [hpoint]
          simp [Point.next, calm, hprocessed, hregistered]
        | some hook =>
          have hnext : ∀ locked, Point.next (exports limit maxAttempts backoffMs) w locked
              s.store (s.point w) calm = some (s.store, .hooking handled row hook rest) := by
            intro locked
            rw [hpoint]
            simp [Point.next, calm, hprocessed, hregistered]
          obtain ⟨taken, hstill⟩ := hstep _ hnext rfl
          rw [hpoint] at hrelies
          have hrelevant := mem_relevant.mp (hrelies.2 handler List.mem_cons_self)
          obtain ⟨rfl, rfl⟩ := eq_settleExport hrelevant.1 hregistered
          have hat : (after s s.store w (.hooking handled row settleExport rest)).point w =
              .hooking handled row settleExport rest := Function.update_self ..
          obtain ⟨t, last, hfailed⟩ := exists_failed_of_hooking hat hstill hjob hqueued
          exact ⟨[.step w calm] ++ [.step w calm], t, by simp [hcalm],
            (System.Run.single taken).append (.single last), hfailed⟩
  | _ =>
    rw [hpoint] at hsettles
    cases hsettles

omit [DecidableEq W] in
theorem apart_linked_of_startsEmpty {db : Db (ExportJobs P)} (h : StartsEmpty db) :
    db.Apart ∧ db.Linked := by
  obtain ⟨consumers, now, rfl⟩ := h
  exact ⟨fun row hrow => absurd hrow (Table.not_mem_empty row),
    fun row hrow => absurd hrow (Table.not_mem_empty row),
    fun entry hentry => absurd hentry (Table.not_mem_empty entry),
    fun row hrow => absurd hrow (Table.not_mem_empty row)⟩

/-- In every run without an interrupted settlement, no event is given up with its
job queued and nobody left to settle it. -/
theorem dead_letters_settle
    (reached : ((exportSystem limit maxAttempts backoffMs).restrict Uninterrupted).Reachable s) :
    DeadLettersSettle limit maxAttempts backoffMs s := by
  have hrule := exports_rule (P := P) limit maxAttempts backoffMs Uninterrupted
  have hinvariant : ExportSound limit maxAttempts backoffMs s ∧ Attended s := by
    refine reached.invariant (I := fun s => ExportSound limit maxAttempts backoffMs s ∧ Attended s)
      (fun s₀ hstart => ?_) fun u a v hu taken => ?_
    · refine ⟨hrule.initial (fun _ => apart_linked_of_startsEmpty) hstart, fun row hrow => ?_⟩
      obtain ⟨consumers, now, heq⟩ := hstart.1
      rw [heq] at hrow
      exact absurd hrow (Table.not_mem_empty row)
    · exact ⟨hrule.step hu.1 taken.1 taken.2, attended_step hu.1 hu.2 taken.1 taken.2⟩
  intro row hrow htype hdead job hjob hid hqueued
  rcases hinvariant.2 row hrow htype job hjob hid hqueued with huntouched | ⟨w, hsettles⟩
  · exact absurd (OutboxRow.pending_iff.mp huntouched.1).2 hdead
  · exact exists_failed_of_settles hinvariant.1 hjob hqueued hsettles

/-! ## A settlement that is never made -/

/-- The process has nothing to do with the export and replays nothing. -/
def Point.Elsewhere (exportId : Uuid) : Point (ExportJobs P) (ExportGiven P) → Prop
  | settling _ row _ => row.eventType = exportRequested → row.exportId ≠ some exportId
  | hooking _ row _ _ => row.eventType = exportRequested → row.exportId ≠ some exportId
  | planning _ _ _ => False
  | replaying _ _ _ _ => False
  | _ => True

/-- A queued job whose events nobody will take up again. -/
structure Abandoned (s : ExportWorkers W P) (job : ExportJob P) : Prop where
  present : job ∈ s.store.consumers
  rows : ∀ row ∈ s.store.outbox, row.eventType = exportRequested → row.exportId = some job.id →
    row.pending = false
  points : ∀ w, (s.point w).Elsewhere job.id

omit [DecidableEq W] in
theorem Point.Moves.mem_of_elsewhere {locked : Uuid → Bool} {db db' : Db (ExportJobs P)}
    {given : Given (ExportGiven P)} {p q : Point (ExportJobs P) (ExportGiven P)}
    (h : Moves (exports limit maxAttempts backoffMs) w locked db given p db' q)
    (before : Relies (exports limit maxAttempts backoffMs) w db p) (relies : ExportRelies w db p)
    {job : ExportJob P} (helsewhere : p.Elsewhere job.id) (hjob : job ∈ db.consumers)
    (hrows : ∀ row ∈ db.outbox, row.eventType = exportRequested → row.exportId = some job.id →
      row.pending = false) : job ∈ db'.consumers := by
  have hrun : ∀ {claim handler rest consumers thrown},
      Claimed (exports limit maxAttempts backoffMs) w db claim (handler :: rest) →
      handler.handle claim.row db.now given.consumer db.consumers = (consumers, thrown) →
      job ∈ consumers := by
    intro claim handler rest consumers thrown claimed hran
    obtain ⟨hmem, haccepts, -⟩ := Outbox.mem_relevant.mp (claimed.mem_relevant List.mem_cons_self)
    have hkept := mem_handle_of_ne hmem db.now given.consumer hjob (fun htype hid => by
      have hdone := hrows _ claimed.row htype hid
      rw [claimed.pending] at hdone
      cases hdone) haccepts
    rwa [hran] at hkept
  cases h with
  | handled claim handler rest consumers ran => exact hrun before.1 ran
  | handlerThrew claim handler rest consumers error ran => exact hrun before.1 ran
  | hooked handled row rest hook consumers ran =>
    obtain ⟨rfl, htype, -⟩ := relies
    have hkept := mem_settleExport_of_ne db.now given.consumer hjob (helsewhere htype)
    rwa [ran] at hkept
  | hookThrew handled row rest hook consumers error ran =>
    obtain ⟨rfl, htype, -⟩ := relies
    have hkept := mem_settleExport_of_ne db.now given.consumer hjob (helsewhere htype)
    rwa [ran] at hkept
  | _ => exact hjob

omit [DecidableEq W] in
theorem Point.Moves.elsewhere {locked : Uuid → Bool} {db db' : Db (ExportJobs P)}
    {given : Given (ExportGiven P)} {p q : Point (ExportJobs P) (ExportGiven P)}
    (h : Moves (exports limit maxAttempts backoffMs) w locked db given p db' q)
    (before : Relies (exports limit maxAttempts backoffMs) w db p) (publish : given.task = .publish)
    {exportId : Uuid} (helsewhere : p.Elsewhere exportId)
    (hrows : ∀ row ∈ db.outbox, row.eventType = exportRequested → row.exportId = some exportId →
      row.pending = false) : q.Elsewhere exportId := by
  cases h with
  | selected selection options asked =>
    rw [publish] at asked
    cases asked
  | deadLettered claim error exhausted =>
    intro htype hid
    have hdone := hrows _ before.1 htype hid
    rw [before.2] at hdone
    cases hdone
  | passed | hooking | hooked => exact helsewhere
  | planned | applying | locked => cases helsewhere
  | _ => trivial

omit [DecidableEq W] in
theorem Requested.abandoned {elapsed : Nat} {db : Db (ExportJobs P)}
    (h : Requested s.store elapsed db) {job : ExportJob P} (abandoned : Abandoned s job) :
    Abandoned (W := W) { s with store := db } job := by
  cases h with
  | event event other fresh =>
    refine ⟨abandoned.present, fun row hrow htype hid => ?_, abandoned.points⟩
    rcases Table.mem_insertIfAbsent.mp hrow with hrow | ⟨rfl, -⟩
    · exact abandoned.rows row hrow htype hid
    · exact absurd htype other
  | projectExport new event queued export' hlinked unknown fresh =>
    refine ⟨Table.mem_insertIfAbsent_of_mem abandoned.present, fun row hrow htype hid => ?_,
      abandoned.points⟩
    rcases Table.mem_insertIfAbsent.mp hrow with hrow | ⟨rfl, -⟩
    · exact abandoned.rows row hrow htype hid
    · rw [DomainEvent.row, hlinked, Option.some.injEq] at hid
      exact absurd hid.symm (unknown job abandoned.present)

theorem abandoned_step (sound : ExportSound limit maxAttempts backoffMs s) {job : ExportJob P}
    (abandoned : Abandoned s job) (publishes : Publishes a)
    (taken : (exportSystem limit maxAttempts backoffMs).step s a t) : Abandoned t job := by
  cases taken with
  | stop w =>
    refine ⟨abandoned.present, abandoned.rows, fun v => ?_⟩
    by_cases hv : v = w
    · subst hv
      simp [program, Point.Elsewhere]
    · simpa [hv] using abandoned.points v
  | outside moved => exact (requested_of_arrive moved).abandoned abandoned
  | @step w given locked db q others ran free =>
    have hmoves := Point.moves_of_next ran
    obtain ⟨before, relies⟩ := sound.relies w
    have helsewhere := abandoned.points w
    refine ⟨hmoves.mem_of_elsewhere before relies helsewhere abandoned.present abandoned.rows, ?_,
      fun v => ?_⟩
    · intro row' hrow' htype hid
      obtain ⟨row, hrow, hkey, -, hsame, hexport, -⟩ := hmoves.exists_before hrow'
      have hdone := abandoned.rows row hrow (hsame ▸ htype) (hexport ▸ hid)
      cases hmoves.rowAfter before hrow hrow' hkey with
      | same => exact hdone
      | published claim point locked inbox => simp [OutboxRow.pending, OutboxRow.publish]
      | failed claim error locked pending =>
        rw [hdone] at pending
        cases pending
      | deadLettered claim error point locked exhausted =>
        simp [OutboxRow.pending, OutboxRow.fail]
      | replayed options startedAt done point member =>
        rw [point] at helsewhere
        cases helsewhere
    · by_cases hv : v = w
      · subst hv
        simpa using hmoves.elsewhere before publishes helsewhere abandoned.rows
      · simpa [hv] using abandoned.points v

/-- No publisher settles an abandoned job. -/
theorem Abandoned.not_settled (sound : ExportSound limit maxAttempts backoffMs s)
    {job : ExportJob P} (abandoned : Abandoned s job) (hqueued : job.state = .queued)
    {labels : List (ExportAction W P)} (hpublish : ∀ a ∈ labels, Publishes a)
    (run : (exportSystem limit maxAttempts backoffMs).Run s labels t) :
    ∀ job' ∈ t.store.consumers, job'.id = job.id → job'.state ≠ .failed := by
  have hrule := exports_rule (P := P) limit maxAttempts backoffMs fun _ _ => True
  have hkept : ExportSound limit maxAttempts backoffMs t ∧ Abandoned t job :=
    (run.restrict fun a ha _ => hpublish a ha).preserves
      (I := fun s => ExportSound limit maxAttempts backoffMs s ∧ Abandoned s job)
      ⟨sound, abandoned⟩ fun u a v hu taken =>
        ⟨hrule.step hu.1 trivial taken.2, abandoned_step hu.1 hu.2 taken.1 taken.2⟩
  intro job' hjob' hid
  rw [Table.eq_of_key hjob' hkept.2.present hid, hqueued]
  decide

end Run

section GivenUp

/-- The default settings of a worker. -/
abbrev defaults : Deployment Nat (ExportJobs Unit) (ExportGiven Unit) :=
  exports (fun _ => 100) (fun _ => 5) fun _ => 5000

abbrev defaultSystem : System (ExportWorkers Nat Unit) (ExportAction Nat Unit) :=
  exportSystem (fun _ => 100) (fun _ => 5) fun _ => 5000

/-- Loading the records of an export fails. -/
def unbuildable (request : ApiRequest) (thrown : Option Thrown) (elapsed : Nat) :
    Given (ExportGiven Unit) where
  task := .publish
  thrown
  consumer :=
    { request
      selectThrows := none
      built := .error (.error (units "Error") (units "EXPORT_PROJECT_MISSING"))
      updateThrows := none }
  elapsed

def otherEvent (id : Uuid) : ApiRequest := .event ⟨id, 1, units "project.registered", none⟩

/-- One failed attempt that took `steps` statements, and time for the next to be due. -/
def failedAttempt (eventId : Uuid) (steps : Nat) : List (Program.Move (Given (ExportGiven Unit))) :=
  List.replicate steps (.step (unbuildable (otherEvent 0) none 0)) ++
    [.step (unbuildable (otherEvent 0) (some (.other [])) 0),
      .outside (unbuildable (otherEvent eventId) none 80000000)]

/-- An export is requested and its event fails five times. -/
def fiveFailures : List (Program.Move (Given (ExportGiven Unit))) :=
  .outside (unbuildable (.projectExport 1 7 1 1 1 []) none 0) :: failedAttempt 8 8 ++
    failedAttempt 9 6 ++ failedAttempt 10 6 ++ failedAttempt 11 6 ++
    List.replicate 6 (.step (unbuildable (otherEvent 0) none 0))

/-- Moves of a process that has no hooks to run. -/
def beforeHooks : Point (ExportJobs Unit) (ExportGiven Unit) →
    Program.Move (Given (ExportGiven Unit)) → Bool
  | .settling _ _ _, _ => false
  | .hooking _ _ _ _, _ => false
  | _, _ => true

theorem permits_beforeHooks :
    (program defaults).Permits beforeHooks (Uninterrupted (W := Nat)) := by
  intro db w p move hallowed
  have hfree : ¬ Owes ((program defaults).only db w p) w := by
    rintro ⟨job, -, -, hsettles⟩
    rw [Program.only_point] at hsettles
    cases p with
    | settling | hooking => cases hallowed
    | _ => cases hsettles
  cases move with
  | step given => exact fun howes => absurd howes hfree
  | stop => exact hfree
  | outside given => trivial

/-- The five failures leave the event given up and its job queued. -/
theorem exists_givenUp : ∃ after, (program defaults).alone beforeHooks 0
    (Db.empty .empty 0) .idle fiveFailures = some after ∧
    ∃ job ∈ after.1.consumers, job.state = .queued ∧
      (∃ row ∈ after.1.outbox, row.eventType = exportRequested ∧ row.deadLetteredAt ≠ none ∧
        row.exportId = some job.id) ∧
      ∀ row ∈ after.1.outbox, row.eventType = exportRequested → row.exportId = some job.id →
        row.pending = false := by
  have hrun : (((program defaults).alone beforeHooks 0 (Db.empty .empty 0) .idle
      fiveFailures).any fun after => after.1.consumers.rows.any fun job =>
        decide (job.state = .queued) && decide ((∃ row ∈ after.1.outbox.rows,
          row.eventType = exportRequested ∧ row.deadLetteredAt ≠ none ∧
            row.exportId = some job.id) ∧
          ∀ row ∈ after.1.outbox.rows, row.eventType = exportRequested →
            row.exportId = some job.id → row.pending = false)) = true := by
    decide +kernel
  obtain ⟨after, hafter, hjobs⟩ := Option.any_eq_true _ _ |>.mp hrun
  obtain ⟨job, hjob, hgiven⟩ := List.any_eq_true.mp hjobs
  obtain ⟨hqueued, hrows⟩ := Bool.and_eq_true_iff.mp hgiven
  exact ⟨after, hafter, job, hjob, of_decide_eq_true hqueued, of_decide_eq_true hrows⟩

theorem initial_defaults : defaultSystem.initial
    ((program defaults).only (Db.empty .empty 0) 0 .idle) :=
  Program.initial_only ⟨.empty, 0, rfl⟩

theorem dead_letters_settle_defaults :
    ∃ s : ExportWorkers Nat Unit, DeadLettersSettle (fun _ => 100) (fun _ => 5) (fun _ => 5000) s ∧
      ∃ row ∈ s.store.outbox, row.deadLetteredAt ≠ none ∧
        ∃ job ∈ s.store.consumers, row.exportId = some job.id ∧ job.state = .queued := by
  obtain ⟨after, hafter, job, hjob, hqueued, ⟨row, hrow, -, hdead, hid⟩, -⟩ := exists_givenUp
  obtain ⟨labels, run⟩ := Program.run_alone StartsEmpty permits_beforeHooks hafter
  exact ⟨_, dead_letters_settle ⟨_, labels, initial_defaults, run⟩, row, hrow, hdead, job, hjob,
    hid, hqueued⟩

/-- A worker that stops before it has run the hooks leaves the job queued for good. -/
theorem exists_unsettled : ∃ s : ExportWorkers Nat Unit, defaultSystem.Reachable s ∧
    ¬ DeadLettersSettle (fun _ => 100) (fun _ => 5) (fun _ => 5000) s := by
  obtain ⟨after, hafter, job, hjob, hqueued, ⟨row, hrow, htype, hdead, hid⟩, hrows⟩ :=
    exists_givenUp
  obtain ⟨labels, run⟩ := Program.run_alone StartsEmpty permits_beforeHooks hafter
  have hstop : defaultSystem.step ((program defaults).only after.1 0 after.2) (.stop 0)
      ((program defaults).only after.1 0 .idle) := Program.stop_only
  have hreached : defaultSystem.Reachable ((program defaults).only after.1 0 .idle) :=
    ⟨_, _, initial_defaults, run.of_restrict.snoc hstop⟩
  have hsound : ExportSound (fun _ => 100) (fun _ => 5) (fun _ => 5000)
      ((program defaults).only after.1 0 .idle) :=
    (exports_rule _ _ _ fun _ _ => True).reachable (fun _ => apart_linked_of_startsEmpty)
      (hreached.restrict fun _ _ => trivial)
  have habandoned : Abandoned ((program defaults).only after.1 0 .idle) job := by
    refine ⟨hjob, hrows, fun v => ?_⟩
    have hidle : ((program defaults).only after.1 0 .idle).point v = .idle :=
      congrArg (fun s => s.point v) (Program.only_idle (P := program defaults))
    rw [hidle]
    trivial
  refine ⟨_, hreached, fun hsettle => ?_⟩
  obtain ⟨labels, t, hpublish, run, job', hjob', hkey, hfailed⟩ :=
    hsettle row hrow htype hdead job hjob hid hqueued
  exact habandoned.not_settled hsound hqueued hpublish run job' hjob' hkey hfailed

end GivenUp

end MpcRegistry.Outbox
