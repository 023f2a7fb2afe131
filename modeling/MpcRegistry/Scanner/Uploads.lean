import MpcRegistry.Library.Leases
import MpcRegistry.Library.Processes
import MpcRegistry.Library.Table
import MpcRegistry.Scanner.Instream

/-!
# Uploads in quarantine and their scans

Source: apps/scan-worker/src/scan-worker.ts:87-248 and main.ts:165-190,
apps/scan-worker/src/scanner.ts:43-51, apps/api/src/routes/uploads.ts:656-725, 770-800 and
documents.ts:430-475, document-revocation.ts:95-125, packages/storage/src/storage.ts:135-158,
packages/db/migrations/0007_object_uploads.sql, 0015_scan_attempts.sql and 0016_scan_lease.sql.
Times are microseconds; the text of a lease's end is read back as that time. `SKIP LOCKED` may pass
over earlier uploads, so any that can be leased may come. What the object store and the scanner
answer is given from outside, and so is when the API handles a report.
-/
namespace MpcRegistry.Scanner
open Library Processes

abbrev Uuid := Nat

abbrev Instant := Int

inductive UploadState where
  | received | quarantined | scannedClean | scannedInfected | promoted | rejected
  deriving DecidableEq, Repr

/-- `UPLOAD_TRANSITIONS` -/
def UploadState.transitions : UploadState → List UploadState
  | received => [quarantined, rejected]
  | quarantined => [scannedClean, scannedInfected, rejected]
  | scannedClean => [promoted, rejected]
  | scannedInfected => [rejected]
  | promoted => []
  | rejected => []

def canTransitionUpload (source target : UploadState) : Bool := target ∈ source.transitions

/-- `core.object_uploads` -/
structure Upload where
  id : Uuid
  tenantId : Uuid
  byteSize : Nat
  state : UploadState
  version : Nat
  rejectionReason : Option Text
  scanAttempts : Int
  scanLeasedUntil : Option Instant
  deriving DecidableEq, Repr

structure ScanOptions where
  tenantId : Uuid
  maxAttempts : Nat
  leaseMs : Nat
  scannerTimeoutMs : Option Nat
  objectReadTimeoutMs : Option Nat

/-- The row that `leaseOne` returns, with the time the lease was taken. -/
structure LeasedUpload where
  id : Uuid
  version : Nat
  byteSize : Nat
  scanAttempts : Int
  leaseToken : Instant
  takenAt : Instant
  deriving DecidableEq, Repr

inductive ScanResult where
  | clean
  | infected (signature : Text)
  deriving DecidableEq, Repr

def ScanResult.toState : ScanResult → UploadState
  | clean => .scannedClean
  | infected _ => .scannedInfected

def ScanResult.detail : ScanResult → Option Text
  | clean => none
  | infected signature => some signature

/-- A request to the scan-result route, under the tenant of the worker's token. The lease it was
made under is not sent. -/
structure Report where
  tenantId : Uuid
  uploadId : Uuid
  version : Nat
  result : ScanResult
  takenAt : Instant
  deriving DecidableEq, Repr

/-- The table, the time of the last lease, the reports sent, and a record of the leases taken that
no statement reads: a lease is released with or without a refund. -/
structure Store (W : Type) where
  uploads : Table Upload.id
  clock : Instant
  reports : List Report
  leases : Uuid → List (Lease Instant W Bool)

/-! ## The worker -/

/-- A bad timeout throws. -/
def scanDeadlineMs (byteSize baseTimeoutMs : Nat) : Option Nat :=
  if byteSize > maxScanBytes ∨ baseTimeoutMs = 0 then none
  else some (min 600000 (baseTimeoutMs + (byteSize + 1048575) / 1048576 * 125))

/-- The length of a lease in seconds. -/
def leaseSeconds (options : ScanOptions) (byteSize : Nat) : Option Nat :=
  (scanDeadlineMs (min byteSize maxScanBytes) (options.scannerTimeoutMs.getD 30000)).map
    fun scanBudget =>
      let leaseMs := max options.leaseMs
        (options.objectReadTimeoutMs.getD 60000 + scanBudget + 120000)
      max 1 ((leaseMs + 999) / 1000)

def ScanOptions.selects (options : ScanOptions) (now : Instant) (u : Upload) : Bool :=
  u.state = .quarantined && u.tenantId = options.tenantId && u.scanAttempts < options.maxAttempts &&
    u.scanLeasedUntil.all (· < now)

def Upload.lease (until' : Instant) (u : Upload) : Upload :=
  { u with scanAttempts := u.scanAttempts + 1, scanLeasedUntil := some until' }

theorem Upload.id_lease (until' : Instant) (u : Upload) : (u.lease until').id = u.id := rfl

def Upload.leased (now until' : Instant) (u : Upload) : LeasedUpload where
  id := u.id
  version := u.version
  byteSize := u.byteSize
  scanAttempts := u.scanAttempts + 1
  leaseToken := until'
  takenAt := now

/-- The conditions of the update in `recordFailure`. -/
def LeasedUpload.guards (row : LeasedUpload) (u : Upload) : Bool :=
  u.id = row.id && u.state = .quarantined && u.version = row.version &&
    u.scanAttempts = row.scanAttempts && u.scanLeasedUntil = some row.leaseToken

def Upload.fail (reason : Text) (refundAttempt : Bool) (u : Upload) : Upload :=
  { u with
    rejectionReason := some (reason.take 300)
    scanLeasedUntil := none
    scanAttempts := u.scanAttempts - if refundAttempt then 1 else 0 }

theorem Upload.id_fail (reason : Text) (refundAttempt : Bool) (u : Upload) :
    (u.fail reason refundAttempt).id = u.id := rfl

section Statements

variable {W : Type} (store : Store W)

/-- The update of `leaseOne`. -/
def Store.takeLease (w : W) (now until' : Instant) (id : Uuid) : Store W :=
  { store with
    uploads := store.uploads.update (·.id = id) (Upload.lease until') (Upload.id_lease until')
    clock := now
    leases := Function.update store.leases id
      ({ owner := w, start := now, expiry := until', released := none } :: store.leases id) }

/-- The transaction of `leaseOne`; the clock moves on from lease to lease. -/
def Store.leaseOne (w : W) (options : ScanOptions) (now : Instant) (id : Uuid) :
    Option (Store W × LeasedUpload) :=
  (store.uploads.lookup id).bind fun u =>
    if store.clock < now ∧ options.selects now u then
      (leaseSeconds options u.byteSize).map fun seconds : Nat =>
        let until' : Instant := now + seconds * 1000000
        (store.takeLease w now until' id, u.leased now until')
    else none

def Store.recordFailure (row : LeasedUpload) (reason : Text) (refundAttempt : Bool) : Store W :=
  { store with
    uploads := store.uploads.update row.guards (Upload.fail reason refundAttempt)
      (Upload.id_fail reason refundAttempt)
    leases :=
      if store.uploads.rows.any row.guards then
        Function.update store.leases row.id
          (Lease.release row.takenAt refundAttempt (store.leases row.id))
      else store.leases }

/-! ## The API -/

/-- The upload is of the tenant, at the version of the request, and may go to the new state. -/
def Report.accepts (report : Report) (u : Upload) : Bool :=
  u.id = report.uploadId && u.tenantId = report.tenantId && u.version = report.version &&
    canTransitionUpload u.state report.result.toState

def Upload.scanned (result : ScanResult) (u : Upload) : Upload :=
  { u with
    state := result.toState
    version := u.version + 1
    rejectionReason := result.detail }

theorem Upload.id_scanned (result : ScanResult) (u : Upload) : (u.scanned result).id = u.id := rfl

/-- The scan-result route. A repeat under one idempotency key is answered without it. -/
def Store.scanResult (report : Report) : Store W :=
  { store with
    uploads := store.uploads.update report.accepts (Upload.scanned report.result)
      (Upload.id_scanned report.result) }

/-- The other routes that write the row. A new upload is quarantined at once; a revocation and a
profile edit leave the state. -/
inductive Write where
  | insert (id tenantId : Uuid) (byteSize : Nat)
  | promote (id : Uuid)
  | revoke (id : Uuid)
  | editProfile (id : Uuid)

def Write.accepts : Write → Upload → Bool
  | insert .., _ => false
  | promote id, u => u.id = id && canTransitionUpload u.state .promoted
  | revoke id, u => u.id = id && u.state = .promoted
  | editProfile id, u => u.id = id && u.state ≠ .scannedInfected && u.state ≠ .rejected

def Write.change : Write → Upload → Upload
  | promote _, u => { u with state := .promoted, version := u.version + 1 }
  | _, u => { u with version := u.version + 1 }

theorem Write.id_change (write : Write) (u : Upload) : (write.change u).id = u.id := by
  cases write <;> rfl

def newUpload (id tenantId : Uuid) (byteSize : Nat) : Upload where
  id
  tenantId
  byteSize
  state := .quarantined
  version := 1
  rejectionReason := none
  scanAttempts := 0
  scanLeasedUntil := none

def Store.write (write : Write) : Store W :=
  match write with
  | .insert id tenantId byteSize =>
    { store with uploads := store.uploads.insertIfAbsent (newUpload id tenantId byteSize) }
  | _ =>
    { store with uploads := store.uploads.update write.accepts write.change write.id_change }

end Statements

/-! ## The system -/

/-- Where `scanOnce` stands: a report is waited for, or a failure is to be recorded. -/
inductive Point where
  | idle
  | scanning (row : LeasedUpload)
  | reporting (row : LeasedUpload)
  | failing (row : LeasedUpload) (reason : Text) (refundAttempt : Bool)
  deriving DecidableEq, Repr

def Point.row : Point → Option LeasedUpload
  | idle => none
  | scanning row => some row
  | reporting row => some row
  | failing row _ _ => some row

inductive Input where
  | lease (now : Instant) (id : Uuid)
  | readFailed
  | missing
  | scanned (byteLength : Nat) (verdict : ScanVerdict)
  | reported
  | refused (status : Option Nat) (error : Text)
  | recorded
  | lost -- the statement failed
  | deliver (report : Report)
  | write (write : Write)

/-- What follows a verdict on bytes of the right length. -/
def afterVerdict (row : LeasedUpload) : ScanVerdict → Point
  | .error reason unavailable =>
    if unavailable then .failing row (units "scan_unavailable") true
    else .failing row (units "scan_error: " ++ reason) false
  | _ => .reporting row

def verdictReport (options : ScanOptions) (row : LeasedUpload) : ScanVerdict → List Report
  | .clean => [⟨options.tenantId, row.id, row.version, .clean, row.takenAt⟩]
  | .infected signature =>
    [⟨options.tenantId, row.id, row.version, .infected signature, row.takenAt⟩]
  | .error _ _ => []

section System

variable {W : Type} (options : W → ScanOptions)

/-- One step of `scanOnce`. -/
def scanOnce (w : W) (store : Store W) : Point → Input → Option (Store W × Point)
  | .idle, .lease now id =>
    (store.leaseOne w (options w) now id).map fun (store, row) => (store, .scanning row)
  | .scanning row, .readFailed =>
    some (store, .failing row (units "scan_error: object read failed or timed out") false)
  | .scanning row, .missing => some (store, .failing row (units "scan_error: object missing") false)
  | .scanning row, .scanned byteLength verdict =>
    if byteLength ≠ row.byteSize then
      some (store, .failing row
        (units "scan_error: object size does not match upload metadata") false)
    else
      some ({ store with reports := store.reports ++ verdictReport (options w) row verdict },
        afterVerdict row verdict)
  | .reporting _, .reported => some (store, .idle)
  | .reporting row, .refused status error =>
    some (store, .failing row (units "report_error: " ++ error) (status = some 401))
  | .failing row reason refundAttempt, .recorded =>
    some (store.recordFailure row reason refundAttempt, .idle)
  | .failing _ _ _, .lost => some (store, .idle)
  | _, _ => none

/-- A report that was sent may arrive at any time, also twice. -/
def arrive (store : Store W) : Input → Option (Store W)
  | .deliver report => if report ∈ store.reports then some (store.scanResult report) else none
  | .write write => some (store.write write)
  | _ => none

/-- Any number of scan workers; each may stop at any point. -/
def program : Program W (Store W) Point Input Empty where
  idle := .idle
  next w _ store p input := scanOnce options w store p input
  holds _ := []
  outside := arrive
  holds_idle := rfl

/-- Before the first lease. -/
structure Fresh (store : Store W) : Prop where
  leases : ∀ id, store.leases id = []
  reports : store.reports = []
  attempts : ∀ u ∈ store.uploads, u.scanAttempts = 0
  unleased : ∀ u ∈ store.uploads, u.scanLeasedUntil = none

def scanLeases [DecidableEq W] : System (State W (Store W) Point) (Action W Input) :=
  (program options).system Fresh

end System

end MpcRegistry.Scanner
