import MpcRegistry.Library.Transition
import MpcRegistry.Library.Utf16

/-!
# Idempotent requests

Source: apps/api/src/plugins/idempotency.ts:43-172, the collect route in
apps/api/src/routes/source-collect.ts:272-424 and 0049_idempotency_release.sql. A request
either does its work in the transaction that takes the key (`withIdempotency`) or takes the
key, calls outside and works in a transaction of its own (`reserveIdempotency`). A response
is an object, so it is not null. What the database work writes besides the key is only
counted.
-/
namespace MpcRegistry.Idempotency
open Library Utf16

/-! ## Data -/

/-- The primary key of `core.idempotency_keys`. -/
structure Key where
  key : Text
  tenantId : Text
  deriving DecidableEq, Repr

/-- `core.idempotency_keys` -/
structure KeyRow (ρ : Type) where
  requestHash : Text
  responseSnapshot : Option ρ

inductive Usage where
  | withIdempotency | reserveIdempotency
  deriving DecidableEq, Repr

structure Request where
  key : Key
  requestHash : Text
  usage : Usage
  deriving DecidableEq, Repr

/-- `failed` is any error that is not about the key. -/
inductive Refusal where
  | idempotencyInFlight | idempotencyKeyReuse | uniqueViolation | failed
  deriving DecidableEq, Repr

/-- Where a request stands. -/
inductive Phase (ρ : Type) where
  | idle
  /-- `withIdempotency` has found no row. -/
  | checked
  /-- Its INSERT has run and `work` runs. -/
  | working
  /-- Its UPDATE has run. -/
  | settled (response : ρ)
  /-- The INSERT of `reserveIdempotency` has run. -/
  | inserted
  /-- That INSERT did nothing. -/
  | conflicted
  /-- The key is reserved and the call outside runs. -/
  | calling
  /-- The transaction after the call runs. -/
  | writing
  /-- `completeIdempotency` has run in it, over the row if there was one. -/
  | completed (response : ρ) (found : Bool)
  /-- The call or that transaction has failed. -/
  | failed
  /-- The DELETE of `releaseIdempotency` has run, over the row if there was one. -/
  | releasing (found : Bool)
  | answered (response : ρ)
  | refused (refusal : Refusal)
  | crashed

/-- The row of the key that a phase's transaction has written, not yet committed. -/
def Phase.locks {ρ : Type} : Phase ρ → Bool
  | working => true
  | settled _ => true
  | inserted => true
  | completed _ found => found
  | releasing found => found
  | _ => false

/-- What can happen to a request. A commit can succeed although its answer is lost. -/
inductive Move (ρ : Type) where
  | check | insert | workDone (response : ρ) | reserve | read | callDone | complete (response : ρ)
  | delete | commit | commitLost | fail | crash

/-! ## What the statements do -/

section Statements

variable {ρ : Type}

/-- What a SELECT of the row tells a request that has not taken the key. -/
def answerFrom (requestHash : Text) (previous : KeyRow ρ) : Phase ρ :=
  if previous.requestHash ≠ requestHash then .refused .idempotencyKeyReuse
  else
    match previous.responseSnapshot with
    | some response => .answered response
    | none => .refused .idempotencyInFlight

/-- The move of a request that finds this row committed: its next phase, the row committed
after it and the response whose work it commits. -/
def act (request : Request) (row : Option (KeyRow ρ)) :
    Phase ρ → Move ρ → Option (Phase ρ × Option (KeyRow ρ) × Option ρ)
  | .idle, .check =>
    if request.usage ≠ .withIdempotency then none
    else
      match row with
      | some previous => some (answerFrom request.requestHash previous, row, none)
      | none => some (.checked, row, none)
  | .checked, .insert =>
    match row with
    | some _ => some (.refused .uniqueViolation, row, none)
    | none => some (.working, row, none)
  | .working, .workDone response => some (.settled response, row, none)
  | .settled response, .commit =>
    some (.answered response, some ⟨request.requestHash, some response⟩, some response)
  | .settled response, .commitLost =>
    some (.refused .failed, some ⟨request.requestHash, some response⟩, some response)
  | .idle, .reserve =>
    if request.usage ≠ .reserveIdempotency then none
    else
      match row with
      | some _ => some (.conflicted, row, none)
      | none => some (.inserted, row, none)
  | .conflicted, .read =>
    match row with
    | some previous => some (answerFrom request.requestHash previous, row, none)
    | none => some (.refused .idempotencyInFlight, row, none)
  | .inserted, .commit => some (.calling, some ⟨request.requestHash, none⟩, none)
  | .inserted, .commitLost => some (.refused .failed, some ⟨request.requestHash, none⟩, none)
  | .calling, .callDone => some (.writing, row, none)
  | .writing, .complete response => some (.completed response row.isSome, row, none)
  | .completed response found, .commit => some (.answered response,
      if found then row.map fun current => { current with responseSnapshot := some response } else row,
      some response)
  | .completed response found, .commitLost => some (.failed,
      if found then row.map fun current => { current with responseSnapshot := some response } else row,
      some response)
  | .failed, .delete =>
    some (.releasing (row.any fun current => current.responseSnapshot.isNone), row, none)
  | .releasing found, .commit => some (.refused .failed, if found then none else row, none)
  | .releasing found, .commitLost => some (.refused .failed, if found then none else row, none)
  | .calling, .fail => some (.failed, row, none)
  | .writing, .fail => some (.failed, row, none)
  | .completed _ _, .fail => some (.failed, row, none)
  | .answered _, _ => none
  | .refused _, _ => none
  | .crashed, _ => none
  | _, .fail => some (.refused .failed, row, none)
  | _, .crash => some (.crashed, row, none)
  | _, _ => none

end Statements

/-! ## Runs -/

/-- The committed rows, where every request stands and what work has been committed. -/
structure State (R ρ : Type) where
  rows : Key → Option (KeyRow ρ)
  phase : R → Phase ρ
  work : List (R × ρ)

section Runs

variable {R ρ : Type} [DecidableEq R] (requests : R → Request)

def State.after (s : State R ρ) (r : R) (next : Phase ρ) (row : Option (KeyRow ρ)) (done : Option ρ) :
    State R ρ where
  rows := Function.update s.rows (requests r).key row
  phase := Function.update s.phase r next
  work := s.work ++ (done.map (Prod.mk r)).toList

/-- A move that writes the row waits until nobody else has written it. -/
inductive Step : State R ρ → R × Move ρ → State R ρ → Prop where
  | act (s : State R ρ) (r : R) (move : Move ρ) (next : Phase ρ) (row : Option (KeyRow ρ))
      (done : Option ρ)
      (acts : act (requests r) (s.rows (requests r).key) (s.phase r) move = some (next, row, done))
      (free : next.locks = true → ∀ other, other ≠ r → (requests other).key = (requests r).key →
        (s.phase other).locks = false) :
      Step s (r, move) (s.after requests r next row done)

/-- No key is taken and no request begun. -/
def system : System (State R ρ) (R × Move ρ) where
  initial s := (∀ k, s.rows k = none) ∧ (∀ r, s.phase r = .idle) ∧ s.work = []
  step := Step requests

/-- The work committed under a key. -/
def State.workOn (s : State R ρ) (k : Key) : List (R × ρ) :=
  s.work.filter fun entry => (requests entry.1).key = k

end Runs

end MpcRegistry.Idempotency
