import MpcRegistry.Scanner.Attempts

/-!
# Leases that are over, and the end of quarantine

The update of a worker selects an upload by the lease it made, and the end of a lease that is over
is on no upload. A report is another matter: the API asks for the state and the version only.
-/
namespace MpcRegistry.Scanner
open Library Processes

variable {W : Type}

/-! ## Quarantine is left once -/

def LeftQuarantine (id : Uuid) (store : Store W) : Prop :=
  ∃ u ∈ store.uploads, u.id = id ∧ u.state ≠ .quarantined

section Left

variable {options : W → ScanOptions} {store after : Store W} {id : Uuid}

theorem LeftQuarantine.of_uploads (h : LeftQuarantine id store)
    (huploads : after.uploads = store.uploads) : LeftQuarantine id after := by
  unfold LeftQuarantine
  rw [huploads]
  exact h

theorem LeftQuarantine.update (h : LeftQuarantine id store) {selected : Upload → Bool}
    {change : Upload → Upload} (keeps : ∀ u, (change u).id = u.id)
    (huploads : after.uploads = store.uploads.update selected change keeps)
    (hstate : ∀ u, u.state ≠ .quarantined → (change u).state ≠ .quarantined) :
    LeftQuarantine id after := by
  obtain ⟨u, hu, hid, hleft⟩ := h
  unfold LeftQuarantine
  rw [huploads]
  refine ⟨_, Table.mem_update_of_mem keeps hu, ?_⟩
  split
  · exact ⟨(keeps u).trans hid, hstate u hleft⟩
  · exact ⟨hid, hleft⟩

theorem LeftQuarantine.write (h : LeftQuarantine id store) (write : Write) :
    LeftQuarantine id (store.write write) := by
  cases write with
  | insert other tenantId byteSize =>
    obtain ⟨u, hu, hid, hleft⟩ := h
    exact ⟨u, Table.mem_insertIfAbsent_of_mem hu, hid, hleft⟩
  | promote other => exact h.update (Write.id_change _) rfl fun u _ hpromoted => by cases hpromoted
  | revoke other => exact h.update (Write.id_change _) rfl fun u hu => hu
  | editProfile other => exact h.update (Write.id_change _) rfl fun u hu => hu

theorem LeftQuarantine.step {s t : State W (Store W) Point} {a : Action W Input} [DecidableEq W]
    (h : LeftQuarantine id s.store) (taken : (scanLeases options).step s a t) :
    LeftQuarantine id t.store := by
  cases taken with
  | step others ran free =>
    rcases scanOnce_cases ran with ⟨now, leased, row, -, -, hlease⟩ |
      ⟨row, reason, refundAttempt, -, -, rfl⟩ | ⟨huploads, -⟩
    · obtain ⟨u, -, until', -, -, -, -, -, rfl⟩ := exists_of_leaseOne hlease
      exact h.update (Upload.id_lease until') rfl fun u hu => hu
    · exact h.update (Upload.id_fail reason refundAttempt) rfl fun u hu => hu
    · exact h.of_uploads huploads
  | stop => exact h
  | outside moved =>
    rcases arrive_cases moved with ⟨report, -, -, rfl⟩ | ⟨write, -, rfl⟩
    · refine h.update (Upload.id_scanned report.result) rfl fun u _ => ?_
      change report.result.toState ≠ .quarantined
      cases report.result <;> simp [ScanResult.toState]
    · exact h.write write

end Left

/-! ## What late workers and reports change -/

section Late

variable {options : W → ScanOptions} {store after : Store W} {w : W} {row : LeasedUpload}

/-- The end of a lease that is over is on no upload. -/
theorem Tracked.not_guards_of_over (h : Tracked options store) (hholds : Holds w store row)
    (hover : Lease.Over row.takenAt (store.leases row.id)) {u : Upload} (hu : u ∈ store.uploads) :
    row.guards u = false := by
  rw [Bool.eq_false_iff]
  intro hguards
  obtain ⟨lease, hlease, hid, hstart, hheld, hnote, -⟩ := hholds.noted hguards
  refine (h.tracks u hu).lease.not_over hlease hheld hnote ?_
  rw [hstart, hid]
  exact hover

theorem Tracked.uploads_of_over (h : Tracked options store) (hholds : Holds w store row)
    (hover : Lease.Over row.takenAt (store.leases row.id)) (reason : Text) (refundAttempt : Bool) :
    (store.recordFailure row reason refundAttempt).uploads = store.uploads :=
  Table.update_of_none (Upload.id_fail reason refundAttempt) fun _ hu =>
    h.not_guards_of_over hholds hover hu

/-- The columns of a lease as they were, and the reason too unless quarantine ended. -/
def ReportChange (report : Report) (u u' : Upload) : Prop :=
  u'.scanAttempts = u.scanAttempts ∧ u'.scanLeasedUntil = u.scanLeasedUntil ∧
    (u'.rejectionReason ≠ u.rejectionReason → u.id = report.uploadId ∧
      u.version = report.version ∧ u.state = .quarantined ∧ u'.state = report.result.toState)

theorem quarantined_of_scanned {u : UploadState} {result : ScanResult}
    (h : canTransitionUpload u result.toState = true) : u = .quarantined := by
  cases u <;> cases result <;> first | rfl | cases h

theorem reportChange_scanResult (report : Report) {u u' : Upload} (hu : u ∈ store.uploads)
    (hu' : u' ∈ (store.scanResult report).uploads) (hid : u'.id = u.id) :
    ReportChange report u u' := by
  have heq := Table.eq_of_mem_update (Upload.id_scanned report.result) hu hu' hid
  rw [heq]
  split
  · next haccepts =>
    simp only [Report.accepts, Bool.and_eq_true, decide_eq_true_eq] at haccepts
    obtain ⟨⟨⟨hupload, -⟩, hversion⟩, hstate⟩ := haccepts
    exact ⟨rfl, rfl, fun _ => ⟨hupload, hversion, quarantined_of_scanned hstate, rfl⟩⟩
  · exact ⟨rfl, rfl, fun hne => absurd rfl hne⟩

end Late

/-- In every run of the scan workers, with leases taken at advancing times: the attempts of an
upload are its leases less the refunds, within bounds; a worker whose lease is over changes no
upload; a report, however late, changes no attempts and no lease, and a reason only when it ends
the quarantine; one lease at most has not expired; and quarantine is left at most once. -/
theorem scan_leases [DecidableEq W] (options : W → ScanOptions) {s : State W (Store W) Point}
    (h : (scanLeases options).Reachable s) :
    (∀ u ∈ s.store.uploads, u.scanAttempts = attemptsOf (s.store.leases u.id) ∧
      0 ≤ u.scanAttempts ∧
      ∀ most : Nat, (∀ w, (options w).maxAttempts ≤ most) → u.scanAttempts ≤ most) ∧
    (∀ w row input t, (s.point w).row = some row →
      Lease.Over row.takenAt (s.store.leases row.id) →
      (scanLeases options).step s (.step w input) t → t.store.uploads = s.store.uploads) ∧
    (∀ report t, (scanLeases options).step s (.outside (.deliver report)) t →
      ∀ u ∈ s.store.uploads, ∀ u' ∈ t.store.uploads, u'.id = u.id → ReportChange report u u') ∧
    (∀ id, ∀ lease ∈ s.store.leases id, ∀ other ∈ s.store.leases id, ∀ now,
      lease.released = none → other.released = none → s.store.clock ≤ now → now ≤ lease.expiry →
      now ≤ other.expiry → lease = other) ∧
    ∀ labels t, (scanLeases options).Run s labels t → ∀ u ∈ s.store.uploads,
      u.state ≠ .quarantined → ∀ u' ∈ t.store.uploads, u'.id = u.id → u'.state ≠ .quarantined := by
  have hsound := sound_of_reachable h
  refine ⟨?_, ?_, ?_, ?_, ?_⟩
  · intro u hu
    have htracks := hsound.store.tracks u hu
    refine ⟨htracks.attempts, ?_, htracks.bounded⟩
    rw [htracks.attempts]
    exact attemptsOf_nonneg _
  · intro w row input t hrow hover hstep
    cases hstep with
    | step others ran free =>
      rcases scanOnce_cases ran with ⟨now, id, leased, hidle, -, -⟩ |
        ⟨held, reason, refundAttempt, hfailing, -, rfl⟩ | ⟨huploads, -⟩
      · rw [hidle] at hrow
        cases hrow
      · have hheld := hsound.relies w row hrow
        rw [hfailing] at hrow
        cases hrow
        exact hsound.store.uploads_of_over hheld hover reason refundAttempt
      · exact huploads
  · intro report t hstep u hu u' hu' hid
    cases hstep with
    | outside moved =>
      obtain ⟨hsent, heq⟩ := Option.ite_none_right_eq_some.mp moved
      cases heq
      exact reportChange_scanResult report hu hu' hid
  · intro id lease hlease other hother now hheld hheld' hnow hlasts hlasts'
    obtain ⟨u, hu, rfl⟩ := hsound.store.known id (List.ne_nil_of_mem hlease)
    exact (hsound.store.tracks u hu).lease.unique hlease hother hheld hheld' hnow hlasts hlasts'
  · intro labels t run u hu hleft u' hu' hid
    have hstart : LeftQuarantine u.id s.store := ⟨u, hu, rfl, hleft⟩
    obtain ⟨last, hlast, hsame, hstate⟩ : LeftQuarantine u.id t.store :=
      run.preserves (I := fun s => LeftQuarantine u.id s.store) hstart fun _ _ _ h => h.step
    rwa [Table.eq_of_key hu' hlast (hid.trans hsame.symm)]

/-! ## A report that comes late -/

def oneWorker (_ : Unit) : ScanOptions where
  tenantId := 1
  maxAttempts := 3
  leaseMs := 120000
  scannerTimeoutMs := none
  objectReadTimeoutMs := none

def firstStore : Store Unit where
  uploads := ⟨[newUpload 7 1 10], by decide⟩
  clock := 0
  reports := []
  leases _ := []

def lateRow : LeasedUpload := (newUpload 7 1 10).leased 1 211000001

def lateReport : Report := ⟨1, 7, 1, .clean, 1⟩

/-- A scan was clean, its report was not answered in time, and the worker has given the lease up. -/
def lateStore : Store Unit :=
  { firstStore.takeLease () 1 211000001 7 with reports := [lateReport] }.recordFailure lateRow
    (units "report_error: TimeoutError") false

theorem reachable_lateStore :
    (scanLeases oneWorker).Reachable ((program oneWorker).only lateStore () .idle) := by
  have hmoves : (program oneWorker).alone (fun _ _ => true) () firstStore .idle
      [.step (.lease 1 7), .step (.scanned 10 .clean),
        .step (.refused none (units "TimeoutError")), .step .recorded] =
      some (lateStore, .idle) := rfl
  obtain ⟨labels, run⟩ := Program.run_alone Fresh (Program.permits_true _) hmoves
  have hfresh : Fresh firstStore := ⟨fun _ => rfl, rfl, by decide, by decide⟩
  exact ⟨_, labels, Program.initial_only hfresh, run.of_restrict⟩

theorem scan_leases_lateStore :
    (∀ u ∈ lateStore.uploads, u.scanAttempts = attemptsOf (lateStore.leases u.id) ∧
      0 ≤ u.scanAttempts ∧
      ∀ most : Nat, (∀ w, (oneWorker w).maxAttempts ≤ most) → u.scanAttempts ≤ most) ∧
    (∀ w row input t, (((program oneWorker).only lateStore () .idle).point w).row = some row →
      Lease.Over row.takenAt (lateStore.leases row.id) →
      (scanLeases oneWorker).step ((program oneWorker).only lateStore () .idle) (.step w input) t →
      t.store.uploads = lateStore.uploads) ∧
    (∀ report t, (scanLeases oneWorker).step ((program oneWorker).only lateStore () .idle)
        (.outside (.deliver report)) t →
      ∀ u ∈ lateStore.uploads, ∀ u' ∈ t.store.uploads, u'.id = u.id → ReportChange report u u') ∧
    (∀ id, ∀ lease ∈ lateStore.leases id, ∀ other ∈ lateStore.leases id, ∀ now,
      lease.released = none → other.released = none → lateStore.clock ≤ now → now ≤ lease.expiry →
      now ≤ other.expiry → lease = other) ∧
    ∀ labels t, (scanLeases oneWorker).Run ((program oneWorker).only lateStore () .idle) labels t →
      ∀ u ∈ lateStore.uploads, u.state ≠ .quarantined → ∀ u' ∈ t.store.uploads, u'.id = u.id →
        u'.state ≠ .quarantined :=
  scan_leases oneWorker reachable_lateStore

/-- The report of a lease that was released replaces the reason that was recorded. -/
theorem late_report_changes_reason :
    ∃ s t report, (scanLeases oneWorker).Reachable s ∧ report ∈ s.store.reports ∧
      Lease.Over report.takenAt (s.store.leases report.uploadId) ∧
      (scanLeases oneWorker).step s (.outside (.deliver report)) t ∧
      ∃ u ∈ s.store.uploads, ∃ u' ∈ t.store.uploads, u'.id = u.id ∧
        u'.rejectionReason ≠ u.rejectionReason := by
  have hsent : lateReport ∈ lateStore.reports := List.mem_singleton_self _
  have hover : Lease.Over lateReport.takenAt (lateStore.leases lateReport.uploadId) :=
    ⟨{ owner := (), start := 1, expiry := 211000001, released := some false },
      List.mem_singleton_self _, .inr ⟨rfl, by decide⟩⟩
  have harrives : arrive lateStore (.deliver lateReport) = some (lateStore.scanResult lateReport) :=
    Option.ite_none_right_eq_some.mpr ⟨hsent, rfl⟩
  refine ⟨_, { (program oneWorker).only lateStore () .idle with
    store := lateStore.scanResult lateReport }, lateReport, reachable_lateStore, hsent, hover,
    .outside harrives, ?_⟩
  refine ⟨(newUpload 7 1 10).lease 211000001 |>.fail (units "report_error: TimeoutError") false,
    List.mem_singleton_self _, _,
    Table.mem_update_of_mem (Upload.id_scanned lateReport.result) (List.mem_singleton_self _), ?_⟩
  decide

end MpcRegistry.Scanner
