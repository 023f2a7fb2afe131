import MpcRegistry.Library.Processes
import MpcRegistry.Library.Table
import MpcRegistry.Ecma.BigInt

/-!
# Publishing and replaying outbox events

Source: apps/jobs-worker/src/outbox-publisher.ts, outbox-replay.ts,
outbox-handlers.ts and main.ts (the publishing part of its loop), packages/db/migrations/0001_schema.sql:684-706
and 0065_outbox_delivery.sql, apps/api/src/outbox.ts. Columns no statement here
reads are left out, as are the counters of a batch and the audit rows of a
replay. Times are microseconds. A process is a worker or an operator's command;
it may stop at any point, and any of its statements may throw.
-/
namespace MpcRegistry.Outbox
open Library Processes

abbrev Uuid := Nat

/-- `core.outbox`. Of the payload, the field a consumer reads. -/
structure OutboxRow where
  id : Uuid
  tenantId : Uuid
  eventType : Text
  exportId : Option Uuid
  occurredAt : Nat
  publishedAt : Option Nat
  attempts : Nat
  nextAttemptAt : Option Nat
  lastError : Option Text
  deadLetteredAt : Option Nat
  skipHandlers : List Text
  replayedAt : Option Nat
  deriving DecidableEq

/-- `core.inbox`, the whole row being its key. -/
structure InboxRow where
  eventId : Uuid
  handlerVersion : Text
  deriving DecidableEq

/-- What a domain transaction enqueues. -/
structure DomainEvent where
  id : Uuid
  tenantId : Uuid
  eventType : Text
  exportId : Option Uuid

/-- A thrown value: an `Error`, or anything else by its string form. -/
inductive Thrown where
  | error (name message : Text)
  | other (text : Text)
  deriving DecidableEq

def maxErrorLength : Nat := 300

def describeError : Thrown → Text
  | .error name message => (name ++ units ": " ++ message).take maxErrorLength
  | .other text => text.take maxErrorLength

/-- An in-process consumer. `J` is what consumers write besides the inbox, and
`ι` what a run of one depends on that is not in the store. The `Nat` is the time
of the statement. -/
structure OutboxHandler (J ι : Type) where
  name : Text
  version : Text
  accepts : Text → Bool
  handle : OutboxRow → Nat → ι → J → J × Option Thrown
  onDeadLetter : Option (OutboxRow → Nat → ι → J → J × Option Thrown)

def handlerKey {J ι : Type} (handler : OutboxHandler J ι) : Text :=
  handler.name ++ units "@" ++ handler.version

/-- `logHandler`: prints a line and keeps nothing. -/
def logHandler {J ι : Type} : OutboxHandler J ι where
  name := units "log"
  version := units "1"
  accepts _ := true
  handle _ _ _ consumers := (consumers, none)
  onDeadLetter := none

/-- The handlers that accept the event and that no replay excluded for it. -/
def relevant {J ι : Type} (handlers : List (OutboxHandler J ι)) (event : OutboxRow) :
    List (OutboxHandler J ι) :=
  handlers.filter fun handler =>
    handler.accepts event.eventType && !event.skipHandlers.contains handler.name

/-- What each process was started with, and the domain transactions around them. -/
structure Deployment (W J ι : Type) where
  handlers : W → List (OutboxHandler J ι)
  limit : W → Nat
  maxAttempts : W → Nat
  backoffMs : W → Nat
  /-- A domain transaction, with the events it enqueues. It may fail. -/
  request : ι → Nat → J → Option (J × List DomainEvent)

structure Db (J : Type) where
  outbox : Table OutboxRow.id
  inbox : Table (id : InboxRow → InboxRow)
  consumers : J
  now : Nat

def Db.empty {J : Type} (consumers : J) (now : Nat) : Db J := ⟨.empty, .empty, consumers, now⟩

/-! ## Statements -/

def OutboxRow.pending (row : OutboxRow) : Bool :=
  row.publishedAt.isNone && row.deadLetteredAt.isNone

def OutboxRow.due (row : OutboxRow) (now : Nat) (handled : List Uuid) : Bool :=
  row.pending && row.nextAttemptAt.all (· ≤ now) && !handled.contains row.id

/-- `ORDER BY occurred_at, id` -/
def OutboxRow.earlier (a b : OutboxRow) : Bool :=
  a.occurredAt < b.occurredAt || (a.occurredAt == b.occurredAt && a.id ≤ b.id)

/-- The claiming query: the first due row that nobody has locked. -/
def Db.nextDue {J : Type} (db : Db J) (locked : Uuid → Bool) (handled : List Uuid) :
    Option OutboxRow :=
  ((db.outbox.rows.filter fun row => row.due db.now handled && !locked row.id).insertionSort
    fun a b => a.earlier b).head?

def OutboxRow.publish (now attempt : Nat) (row : OutboxRow) : OutboxRow :=
  { row with publishedAt := some now, attempts := attempt, lastError := none }

/-- `Math.round((backoffMs * 2 ** (attempt - 1)) / 1000)` -/
def delaySeconds (backoffMs attempt : Nat) : Nat :=
  (2 * (backoffMs * 2 ^ (attempt - 1)) + 1000) / 2000

def OutboxRow.fail (now attempt backoffMs : Nat) (exhausted : Bool) (error : Thrown)
    (row : OutboxRow) : OutboxRow :=
  { row with
    attempts := attempt
    lastError := some (describeError error)
    nextAttemptAt := some (now + delaySeconds backoffMs attempt * 1000000)
    deadLetteredAt := if exhausted then some now else none }

def OutboxRow.replay (now : Nat) (skipHandlers : List Text) (row : OutboxRow) : OutboxRow :=
  { row with
    publishedAt := none
    deadLetteredAt := none
    attempts := 0
    nextAttemptAt := none
    lastError := none
    skipHandlers
    replayedAt := some now }

def Db.updateRow {J : Type} (db : Db J) (selected : Uuid → Bool) (change : OutboxRow → OutboxRow)
    (keeps : ∀ row, (change row).id = row.id) : Db J :=
  { db with outbox := db.outbox.update (fun row => selected row.id) change keeps }

def Db.publishRow {J : Type} (db : Db J) (id : Uuid) (now attempt : Nat) : Db J :=
  db.updateRow (· = id) (OutboxRow.publish now attempt) fun _ => rfl

def Db.failRow {J : Type} (db : Db J) (id : Uuid) (now attempt backoffMs : Nat) (exhausted : Bool)
    (error : Thrown) : Db J :=
  db.updateRow (· = id) (OutboxRow.fail now attempt backoffMs exhausted error) fun _ => rfl

def Db.replayRows {J : Type} (db : Db J) (ids : List Uuid) (now : Nat) (skipHandlers : List Text) :
    Db J :=
  db.updateRow (ids.contains ·) (OutboxRow.replay now skipHandlers) fun _ => rfl

def Db.alreadyProcessed {J : Type} (db : Db J) (eventId : Uuid) (handlerVersion : Text) : Bool :=
  (db.inbox.lookup ⟨eventId, handlerVersion⟩).isSome

/-- `INSERT … ON CONFLICT DO NOTHING` -/
def Db.claimEvent {J : Type} (db : Db J) (eventId : Uuid) (handlerVersion : Text) : Db J :=
  { db with inbox := db.inbox.insertIfAbsent ⟨eventId, handlerVersion⟩ }

def DomainEvent.row (now : Nat) (event : DomainEvent) : OutboxRow where
  id := event.id
  tenantId := event.tenantId
  eventType := event.eventType
  exportId := event.exportId
  occurredAt := now
  publishedAt := none
  attempts := 0
  nextAttemptAt := none
  lastError := none
  deadLetteredAt := none
  skipHandlers := []
  replayedAt := none

/-- A domain transaction; a taken event id fails the whole of it. -/
def Db.request {J : Type} (db : Db J) (consumers : J) : List DomainEvent → Option (Db J)
  | [] => some { db with consumers }
  | event :: rest =>
    if ∃ row ∈ db.outbox.rows, row.id = event.id then none
    else Db.request { db with outbox := db.outbox.insertIfAbsent (event.row db.now) } consumers rest

/-! ## Replay -/

structure ReplaySelection where
  eventIds : List Uuid
  eventType : Option Text
  includePublished : Bool
  limit : Nat

structure ReplayOptions where
  dryRun : Bool
  skipHandlers : List Text
  reason : Text

inductive ReplayInputError where
  | nothingSelected
  | limitNotPositive
  | unknownHandlers (names : List Text)
  | reasonMissing
  deriving DecidableEq

def ReplayInputError.message : ReplayInputError → Text
  | .nothingSelected => units "Select events with --event-id or --event-type"
  | .limitNotPositive => units "--limit must be a positive integer"
  | .unknownHandlers names => units "Unknown handler(s): " ++ (units ", ").intercalate names
  | .reasonMissing => units "--reason is required when not a dry run"

def validateReplayInput {J ι : Type} (selection : ReplaySelection) (options : ReplayOptions)
    (handlers : List (OutboxHandler J ι)) : Except ReplayInputError Unit :=
  let unknown := options.skipHandlers.filter fun name => !(handlers.map (·.name)).contains name
  if selection.eventIds = [] ∧ selection.eventType = none then .error .nothingSelected
  else if selection.limit < 1 then .error .limitNotPositive
  else if unknown ≠ [] then .error (.unknownHandlers unknown)
  else if options.dryRun = false ∧ Ecma.trim options.reason = [] then .error .reasonMissing
  else .ok ()

def ReplaySelection.selects (selection : ReplaySelection) (row : OutboxRow) : Bool :=
  (selection.eventIds = [] || selection.eventIds.contains row.id) &&
    selection.eventType.all (· = row.eventType) &&
    (row.deadLetteredAt.isSome || (selection.includePublished && row.publishedAt.isSome))

def Db.replayCandidates {J : Type} (db : Db J) (selection : ReplaySelection) : List OutboxRow :=
  ((db.outbox.rows.filter selection.selects).insertionSort fun a b => a.earlier b).take
    selection.limit

inductive ReplayStatus where
  | deadLettered | published | pending
  deriving DecidableEq

inductive ReplayAction where
  | run | alreadyProcessed | skipped
  deriving DecidableEq

structure ReplayPlanItem where
  eventId : Uuid
  tenantId : Uuid
  eventType : Text
  status : ReplayStatus
  handlers : List (Text × ReplayAction)
  deriving DecidableEq

def OutboxRow.replayStatus (row : OutboxRow) : ReplayStatus :=
  if row.deadLetteredAt.isSome then .deadLettered
  else if row.publishedAt.isSome then .published
  else .pending

def Db.replayAction {J ι : Type} (db : Db J) (options : ReplayOptions) (row : OutboxRow)
    (handler : OutboxHandler J ι) : ReplayAction :=
  if options.skipHandlers.contains handler.name then .skipped
  else if db.alreadyProcessed row.id (handlerKey handler) then .alreadyProcessed
  else .run

def Db.planItem {J ι : Type} (db : Db J) (handlers : List (OutboxHandler J ι))
    (options : ReplayOptions) (row : OutboxRow) : ReplayPlanItem where
  eventId := row.id
  tenantId := row.tenantId
  eventType := row.eventType
  status := row.replayStatus
  handlers := (handlers.filter fun handler => handler.accepts row.eventType).map fun handler =>
    (handler.name, db.replayAction options row handler)

/-! ## Processes -/

/-- A claimed event, in the transaction that holds its row. -/
structure Claim where
  handled : List Uuid
  row : OutboxRow
  startedAt : Nat

def Claim.attempt (claim : Claim) : Nat := claim.row.attempts + 1

/-- The ids a batch leaves out after this event. -/
def Claim.handledAfter (claim : Claim) : List Uuid := claim.handled ++ [claim.row.id]

/-- What a process does next; its fields are what it has read. `rest` are the
handlers still to come. -/
inductive Point (J ι : Type) where
  | idle
  | polling (handled : List Uuid)
  | checking (claim : Claim) (rest : List (OutboxHandler J ι))
  | running (claim : Claim) (handler : OutboxHandler J ι) (rest : List (OutboxHandler J ι))
  | recording (claim : Claim) (handler : OutboxHandler J ι) (rest : List (OutboxHandler J ι))
  | failing (claim : Claim) (error : Thrown)
  | settling (handled : List Uuid) (row : OutboxRow) (rest : List (OutboxHandler J ι))
  | hooking (handled : List Uuid) (row : OutboxRow) (hook : OutboxRow → Nat → ι → J → J × Option Thrown)
      (rest : List (OutboxHandler J ι))
  | planning (options : ReplayOptions) (done : List ReplayPlanItem) (rest : List OutboxRow)
  | replaying (options : ReplayOptions) (startedAt : Nat) (done rest : List ReplayPlanItem)

inductive Task where
  | publish
  | replay (selection : ReplaySelection) (options : ReplayOptions)

/-- What a step is told that is not in the store: what an idle process turns to,
whether its statement throws, what a consumer depends on and the time that goes
by. -/
structure Given (ι : Type) where
  task : Task
  thrown : Option Thrown
  consumer : ι
  elapsed : Nat

/-- The rows of `core.outbox` its open transaction has locked. -/
def Point.holds {J ι : Type} : Point J ι → List Uuid
  | checking claim _ => [claim.row.id]
  | running claim _ _ => [claim.row.id]
  | recording claim _ _ => [claim.row.id]
  | failing claim _ => [claim.row.id]
  | replaying _ _ done _ => done.map (·.eventId)
  | _ => []

section Program

variable {W J ι : Type} (D : Deployment W J ι)

/-- The error of a handler, named after it. -/
def OutboxHandler.rethrow (handler : OutboxHandler J ι) (error : Thrown) : Thrown :=
  .error (units "Error") (handler.name ++ units ": " ++ describeError error)

namespace Point

/-- `publishBatch`, and the start of what an idle process does. A claiming query
that throws ends the batch. -/
def poll (w : W) (locked : Uuid → Bool) (db : Db J) (handled : List Uuid) : Point J ι :=
  if handled.length < D.limit w then
    match db.nextDue locked handled with
    | none => idle
    | some row => checking ⟨handled, row, db.now⟩ (relevant (D.handlers w) row)
  else idle

/-- `replayEvents` up to the selected rows. -/
def select (w : W) (db : Db J) (selection : ReplaySelection) (options : ReplayOptions) :
    Point J ι :=
  match validateReplayInput selection options (D.handlers w) with
  | .error _ => idle
  | .ok () => planning options [] (db.replayCandidates selection)

/-- The failure branch of `publishClaimed` and its commit. -/
def fail (w : W) (db : Db J) (claim : Claim) (error : Thrown) : Db J × Point J ι :=
  let exhausted := decide (D.maxAttempts w ≤ claim.attempt)
  (db.failRow claim.row.id claim.startedAt claim.attempt (D.backoffMs w) exhausted error,
    if exhausted then settling claim.handledAfter claim.row (relevant (D.handlers w) claim.row)
    else polling claim.handledAfter)

/-- One statement of a process. A statement that throws inside `publish` fails the
attempt, one that throws while hooks run ends their round, and any other ends the
batch or the command. -/
def next (w : W) (locked : Uuid → Bool) (db : Db J) (point : Point J ι) (given : Given ι) :
    Option (Db J × Point J ι) :=
  match point, given.thrown with
  | idle, _ =>
    match given.task with
    | .publish => some (db, polling [])
    | .replay selection options => some (db, select D w db selection options)
  | polling _, some _ => some (db, idle)
  | polling handled, none => some (db, poll D w locked db handled)
  | checking _ [], some _ => some (db, idle)
  | checking claim [], none =>
    some (db.publishRow claim.row.id claim.startedAt claim.attempt, polling claim.handledAfter)
  | checking claim (_ :: _), some error => some (db, failing claim error)
  | checking claim (handler :: rest), none =>
    some (db, if db.alreadyProcessed claim.row.id (handlerKey handler) then checking claim rest
      else running claim handler rest)
  | running claim handler rest, _ =>
    match handler.handle claim.row db.now given.consumer db.consumers with
    | (consumers, none) => some ({ db with consumers }, recording claim handler rest)
    | (consumers, some error) =>
      some ({ db with consumers }, failing claim (handler.rethrow error))
  | recording claim _ _, some error => some (db, failing claim error)
  | recording claim handler rest, none =>
    some (db.claimEvent claim.row.id (handlerKey handler), checking claim rest)
  | failing _ _, some _ => some (db, idle)
  | failing claim error, none => some (fail D w db claim error)
  | settling handled _ [], _ => some (db, polling handled)
  | settling handled _ (_ :: _), some _ => some (db, polling handled)
  | settling handled row (handler :: rest), none =>
    some (db, if db.alreadyProcessed row.id (handlerKey handler) then settling handled row rest
      else match handler.onDeadLetter with
        | none => settling handled row rest
        | some hook => hooking handled row hook rest)
  | hooking handled row hook rest, _ =>
    match hook row db.now given.consumer db.consumers with
    | (consumers, none) => some ({ db with consumers }, settling handled row rest)
    | (consumers, some _) => some ({ db with consumers }, polling handled)
  | planning _ _ _, some _ => some (db, idle)
  | planning options done (row :: rest), none =>
    some (db, planning options (done ++ [db.planItem (D.handlers w) options row]) rest)
  | planning options done [], none =>
    some (db, if options.dryRun || done.isEmpty then idle else replaying options db.now [] done)
  | replaying _ _ _ _, some _ => some (db, idle)
  | replaying options startedAt done (item :: rest), none =>
    some (db, replaying options startedAt (done ++ [item]) rest)
  | replaying options startedAt done [], none =>
    some (db.replayRows (done.map (·.eventId)) startedAt options.skipHandlers, idle)

end Point

/-- A domain transaction, or time that goes by. -/
def arrive (db : Db J) (given : Given ι) : Option (Db J) :=
  ((D.request given.consumer db.now db.consumers).bind fun (consumers, events) =>
    db.request consumers events).map fun db => { db with now := db.now + given.elapsed }

/-- The publishing workers and replay commands of a deployment. -/
def program : Program W (Db J) (Point J ι) (Given ι) Uuid where
  idle := .idle
  next := Point.next D
  holds := Point.holds
  outside := arrive D
  holds_idle := rfl

end Program

end MpcRegistry.Outbox
