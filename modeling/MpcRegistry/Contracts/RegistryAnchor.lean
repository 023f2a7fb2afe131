import MpcRegistry.Library.Outcome
import MpcRegistry.Library.Transition

/-!
# RegistryAnchorV1

Source: contracts/src/RegistryAnchorV1.sol:33-170 and the structs, errors and
events of contracts/src/interfaces/IRegistryAnchor.sol.
`AccessControlDefaultAdminRules` is OpenZeppelin's and enters as a parameter:
which account holds a role, and what its own external calls do to that record.
`Pausable` is its documented pair of guarded switches. An external call either
returns a new state with its events or reverts and leaves the state alone.
-/
namespace MpcRegistry.Contracts.RegistryAnchor
open Library.Outcome

abbrev Bytes32 := BitVec 256
abbrev Address := BitVec 160

structure Batch where
  root : Bytes32
  manifestHash : Bytes32
  recordCount : BitVec 32
  submittedAt : BitVec 64
  revoked : Bool
  supersededBy : Bytes32
  deriving DecidableEq, Repr

/-- What a mapping slot that was never written reads as. -/
def Batch.zero : Batch := ⟨0, 0, 0, 0, false, 0⟩

inductive Role where
  | anchorSubmitter | pauser
  deriving DecidableEq, Repr

inductive Revert where
  | zeroBatchId
  | batchAlreadyExists (batchId : Bytes32)
  | zeroRoot
  | emptyBatch
  | batchNotFound (batchId : Bytes32)
  | batchAlreadyRevoked (batchId : Bytes32)
  | selfSupersede (batchId : Bytes32)
  | revokedBatchCannotBeSuperseded (batchId : Bytes32)
  | batchAlreadySuperseded (batchId : Bytes32)
  | supersedeTargetRevoked (newBatchId : Bytes32)
  | supersedeTargetSuperseded (newBatchId : Bytes32)
  | accessControlUnauthorizedAccount (account : Address) (role : Role)
  | enforcedPause
  | expectedPause
  | roleCallRefused
  deriving DecidableEq, Repr

inductive Event where
  | rootSubmitted (batchId root manifestHash : Bytes32) (schemaVersion : List (Fin 256))
      (recordCount : BitVec 32) (submitter : Address)
  | batchRevoked (batchId : Bytes32) (reasonCode : List (Fin 256)) (actor : Address)
  | batchSuperseded (batchId newBatchId : Bytes32) (actor : Address)
  | paused (account : Address)
  | unpaused (account : Address)
  deriving DecidableEq, Repr

/-- The part of the transaction a call reads. -/
structure Msg where
  sender : Address
  timestamp : BitVec 256
  deriving DecidableEq, Repr

/-- OpenZeppelin's role record `A` with its external calls `ρ` (grants,
revocations, the two-step admin handover). None of them touches the batches. -/
structure AccessControl (A ρ : Type) where
  hasRole : A → Role → Address → Bool
  roleCall : A → Msg → ρ → Option A

structure State (A : Type) where
  batches : Bytes32 → Batch
  batchIds : List Bytes32
  paused : Bool
  access : A

inductive Call (ρ : Type) where
  | submitRoot (batchId root manifestHash : Bytes32) (schemaVersion : List (Fin 256))
      (recordCount : BitVec 32)
  | revokeBatch (batchId : Bytes32) (reasonCode : List (Fin 256))
  | supersedeBatch (batchId newBatchId : Bytes32)
  | pause
  | unpause
  | role (call : ρ)

/-- The calls a pause does not stop, because they decide about it or about roles. -/
def Call.Administrative {ρ : Type} : Call ρ → Prop
  | .pause | .unpause | .role _ => True
  | _ => False

/-- After the constructor: nothing stored, not paused, the roles it granted. -/
def deployed {A : Type} (access : A) : State A where
  batches := fun _ => Batch.zero
  batchIds := []
  paused := false
  access := access

section Functions

variable {A ρ : Type} (rules : AccessControl A ρ) (s : State A) (msg : Msg)

abbrev Result (A : Type) := Except Revert (State A × List Event)

def onlyRole (role : Role) (body : Result A) : Result A :=
  if rules.hasRole s.access role msg.sender then body
  else .error (.accessControlUnauthorizedAccount msg.sender role)

def whenNotPaused (body : Result A) : Result A :=
  if s.paused then .error .enforcedPause else body

def setBatch (batchId : Bytes32) (batch : Batch) : State A :=
  { s with batches := Function.update s.batches batchId batch }

def submitRoot (batchId root manifestHash : Bytes32) (schemaVersion : List (Fin 256))
    (recordCount : BitVec 32) : Result A :=
  onlyRole rules s msg .anchorSubmitter <| whenNotPaused s <|
    if batchId = 0 then .error .zeroBatchId
    else if (s.batches batchId).submittedAt ≠ 0 then .error (.batchAlreadyExists batchId)
    else if root = 0 then .error .zeroRoot
    else if recordCount = 0 then .error .emptyBatch
    else
      let batch : Batch := {
        root := root
        manifestHash := manifestHash
        recordCount := recordCount
        submittedAt := msg.timestamp.setWidth 64
        revoked := false
        supersededBy := 0 }
      .ok ({ setBatch s batchId batch with batchIds := s.batchIds ++ [batchId] },
        [.rootSubmitted batchId root manifestHash schemaVersion recordCount msg.sender])

def revokeBatch (batchId : Bytes32) (reasonCode : List (Fin 256)) : Result A :=
  onlyRole rules s msg .anchorSubmitter <| whenNotPaused s <|
    let batch := s.batches batchId
    if batch.submittedAt = 0 then .error (.batchNotFound batchId)
    else if batch.revoked then .error (.batchAlreadyRevoked batchId)
    else .ok (setBatch s batchId { batch with revoked := true },
      [.batchRevoked batchId reasonCode msg.sender])

def supersedeBatch (batchId newBatchId : Bytes32) : Result A :=
  onlyRole rules s msg .anchorSubmitter <| whenNotPaused s <|
    if batchId = newBatchId then .error (.selfSupersede batchId)
    else
      let batch := s.batches batchId
      if batch.submittedAt = 0 then .error (.batchNotFound batchId)
      else if batch.revoked then .error (.revokedBatchCannotBeSuperseded batchId)
      else if batch.supersededBy ≠ 0 then .error (.batchAlreadySuperseded batchId)
      else
        let successor := s.batches newBatchId
        if successor.submittedAt = 0 then .error (.batchNotFound newBatchId)
        else if successor.revoked then .error (.supersedeTargetRevoked newBatchId)
        else if successor.supersededBy ≠ 0 then .error (.supersedeTargetSuperseded newBatchId)
        else .ok (setBatch s batchId { batch with supersededBy := newBatchId },
          [.batchSuperseded batchId newBatchId msg.sender])

/-- `_pause` carries OpenZeppelin's `whenNotPaused`. -/
def pause : Result A :=
  onlyRole rules s msg .pauser <| whenNotPaused s <|
    .ok ({ s with paused := true }, [.paused msg.sender])

/-- `_unpause` carries OpenZeppelin's `whenPaused`. -/
def unpause : Result A :=
  onlyRole rules s msg .pauser <|
    if s.paused then .ok ({ s with paused := false }, [.unpaused msg.sender])
    else .error .expectedPause

def roleCall (call : ρ) : Result A :=
  match rules.roleCall s.access msg call with
  | none => .error .roleCallRefused
  | some access => .ok ({ s with access := access }, [])

def call : Call ρ → Result A
  | .submitRoot batchId root manifestHash schemaVersion recordCount =>
    submitRoot rules s msg batchId root manifestHash schemaVersion recordCount
  | .revokeBatch batchId reasonCode => revokeBatch rules s msg batchId reasonCode
  | .supersedeBatch batchId newBatchId => supersedeBatch rules s msg batchId newBatchId
  | .pause => pause rules s msg
  | .unpause => unpause rules s msg
  | .role c => roleCall rules s msg c

def getBatch (batchId : Bytes32) : Batch := s.batches batchId

def batchCount : Nat := s.batchIds.length

/-- Out of range, the array read panics. -/
def batchIdAt (index : Nat) : Option Bytes32 := s.batchIds[index]?

end Functions

/-- One external call with its transaction. -/
abbrev Tx (ρ : Type) := Msg × Call ρ

variable {A ρ : Type}

/-- A revert keeps the state from before the call. -/
def execute (rules : AccessControl A ρ) (s : State A) (tx : Tx ρ) : State A :=
  match call rules s tx.1 tx.2 with
  | .ok (after, _) => after
  | .error _ => s

def executeAll (rules : AccessControl A ρ) (s : State A) (txs : List (Tx ρ)) : State A :=
  txs.foldl (execute rules) s

/-- The contract as a transition system from any role assignment. -/
def system (rules : AccessControl A ρ) : Library.System (State A) (Tx ρ) :=
  Library.System.ofExec (fun s => ∃ access, s = deployed access) (execute rules)

theorem executeAll_run (rules : AccessControl A ρ) (s : State A) (txs : List (Tx ρ)) :
    (system rules).Run s txs (executeAll rules s txs) :=
  Library.System.run_ofExec s txs

/-- Whether the id is taken, as every function of the contract tests it. -/
def Stored (s : State A) (batchId : Bytes32) : Prop := (s.batches batchId).submittedAt ≠ 0

instance (s : State A) (batchId : Bytes32) : Decidable (Stored s batchId) :=
  inferInstanceAs (Decidable (_ ≠ _))

/-- `block.timestamp` survives the `uint64` cast as a non-zero stamp. -/
def Stamped (tx : Tx ρ) : Prop := tx.1.timestamp.setWidth 64 ≠ 0

instance (tx : Tx ρ) : Decidable (Stamped tx) := inferInstanceAs (Decidable (_ ≠ _))

/-- Everything an accepted call can do to the batches and the id list, with the
guards it passed. Pausing and role calls leave both alone. -/
inductive Change (s : State A) (msg : Msg) : Call ρ → State A → Prop where
  | submitted (batchId root manifestHash : Bytes32) (schemaVersion : List (Fin 256))
      (recordCount : BitVec 32) (after : State A)
      (running : s.paused = false) (nonzero : batchId ≠ 0) (fresh : ¬ Stored s batchId)
      (hasRoot : root ≠ 0) (hasRecords : recordCount ≠ 0)
      (batches : after.batches = Function.update s.batches batchId
        ⟨root, manifestHash, recordCount, msg.timestamp.setWidth 64, false, 0⟩)
      (batchIds : after.batchIds = s.batchIds ++ [batchId]) :
      Change s msg (.submitRoot batchId root manifestHash schemaVersion recordCount) after
  | revoked (batchId : Bytes32) (reasonCode : List (Fin 256)) (after : State A)
      (running : s.paused = false) (stored : Stored s batchId)
      (standing : (s.batches batchId).revoked = false)
      (batches : after.batches = Function.update s.batches batchId
        { s.batches batchId with revoked := true })
      (batchIds : after.batchIds = s.batchIds) :
      Change s msg (.revokeBatch batchId reasonCode) after
  | superseded (batchId newBatchId : Bytes32) (after : State A)
      (running : s.paused = false) (different : batchId ≠ newBatchId)
      (stored : Stored s batchId) (head : (s.batches batchId).supersededBy = 0)
      (target : Stored s newBatchId) (targetHead : (s.batches newBatchId).supersededBy = 0)
      (batches : after.batches = Function.update s.batches batchId
        { s.batches batchId with supersededBy := newBatchId })
      (batchIds : after.batchIds = s.batchIds) :
      Change s msg (.supersedeBatch batchId newBatchId) after
  | administered (c : Call ρ) (after : State A) (administrative : c.Administrative)
      (batches : after.batches = s.batches)
      (batchIds : after.batchIds = s.batchIds) : Change s msg c after

section Inversion

variable {rules : AccessControl A ρ} {s after : State A} {msg : Msg} {events : List Event}

theorem onlyRole_ok {role : Role} {body : Result A}
    (h : onlyRole rules s msg role body = .ok (after, events)) : body = .ok (after, events) :=
  (require_ok.mp h).2

theorem whenNotPaused_ok {body : Result A} (h : whenNotPaused s body = .ok (after, events)) :
    s.paused = false ∧ body = .ok (after, events) := by
  obtain ⟨running, h⟩ := guard_ok.mp h
  exact ⟨Bool.eq_false_iff.mpr running, h⟩

theorem submitRoot_change {batchId root manifestHash : Bytes32} {schemaVersion : List (Fin 256)}
    {recordCount : BitVec 32}
    (h : submitRoot rules s msg batchId root manifestHash schemaVersion recordCount =
      .ok (after, events)) :
    Change s msg
      (.submitRoot batchId root manifestHash schemaVersion recordCount : Call ρ) after := by
  obtain ⟨running, h⟩ := whenNotPaused_ok (onlyRole_ok h)
  simp only [guard_ok, Except.ok.injEq, Prod.mk.injEq] at h
  obtain ⟨nonzero, fresh, hasRoot, hasRecords, rfl, -⟩ := h
  exact .submitted batchId root manifestHash schemaVersion recordCount _ running nonzero fresh hasRoot
    hasRecords rfl rfl

theorem revokeBatch_change {batchId : Bytes32} {reasonCode : List (Fin 256)}
    (h : revokeBatch rules s msg batchId reasonCode = .ok (after, events)) :
    Change s msg (.revokeBatch batchId reasonCode : Call ρ) after := by
  obtain ⟨running, h⟩ := whenNotPaused_ok (onlyRole_ok h)
  simp only [guard_ok, Except.ok.injEq, Prod.mk.injEq] at h
  obtain ⟨stored, standing, rfl, -⟩ := h
  exact .revoked batchId reasonCode _ running stored (Bool.eq_false_iff.mpr standing) rfl rfl

theorem supersedeBatch_change {batchId newBatchId : Bytes32}
    (h : supersedeBatch rules s msg batchId newBatchId = .ok (after, events)) :
    Change s msg (.supersedeBatch batchId newBatchId : Call ρ) after := by
  obtain ⟨running, h⟩ := whenNotPaused_ok (onlyRole_ok h)
  simp only [guard_ok, ne_eq, not_not, Except.ok.injEq, Prod.mk.injEq] at h
  obtain ⟨different, stored, -, head, target, -, targetHead, rfl, -⟩ := h
  exact .superseded batchId newBatchId _ running different stored head target targetHead rfl rfl

/-- Inversion of one accepted external call. -/
theorem call_change {c : Call ρ} (h : call rules s msg c = .ok (after, events)) :
    Change s msg c after := by
  cases c with
  | submitRoot => exact submitRoot_change h
  | revokeBatch => exact revokeBatch_change h
  | supersedeBatch => exact supersedeBatch_change h
  | pause =>
    obtain ⟨-, h⟩ := whenNotPaused_ok (onlyRole_ok h)
    cases h
    exact .administered _ _ trivial rfl rfl
  | unpause =>
    obtain ⟨-, h⟩ := require_ok.mp (onlyRole_ok h)
    cases h
    exact .administered _ _ trivial rfl rfl
  | role c =>
    simp only [call, roleCall] at h
    split at h
    · cases h
    · cases h
      exact .administered _ _ trivial rfl rfl

end Inversion

/-- A call either makes one of the changes or reverts and changes nothing. -/
theorem execute_cases (rules : AccessControl A ρ) (s : State A) (tx : Tx ρ) :
    ((∃ result, call rules s tx.1 tx.2 = .ok result) ∧
        Change s tx.1 tx.2 (execute rules s tx)) ∨
      ((∃ reason, call rules s tx.1 tx.2 = .error reason) ∧ execute rules s tx = s) := by
  unfold execute
  cases h : call rules s tx.1 tx.2 with
  | error reason => exact .inr ⟨⟨reason, rfl⟩, rfl⟩
  | ok result => exact .inl ⟨⟨result, rfl⟩, call_change h⟩

end MpcRegistry.Contracts.RegistryAnchor
