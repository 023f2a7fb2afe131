import Mathlib

/-!
# Anchor transaction states and the submission guard

Source: apps/anchor-worker/src/anchor-state.ts, with
`isEoaAnchorEligibleChainId` of packages/domain/src/chains.ts. Hash and address
texts are lowercase hex everywhere in the worker and stand here for the number
they denote. Wei amounts and block numbers are natural numbers; a
`confirmationsOf` below zero is cut at zero by the source and by `Nat`.
-/
namespace MpcRegistry.Worker

abbrev Hash := Nat
abbrev Address := Nat

inductive TransactionState where
  | created | proposed | signed | submitted | included | confirmed | replaced | reverted
  | reorged | dropped | failed | reconciliationRequired
  deriving DecidableEq, Repr

inductive ReceiptStatus where
  | success | reverted
  deriving DecidableEq, Repr

/-- One `RootSubmitted` log of a receipt, with the address that emitted it. -/
structure RootSubmission where
  contract : Address
  batchId : Hash
  root : Hash
  deriving DecidableEq, Repr

structure Receipt where
  status : ReceiptStatus
  blockNumber : Nat
  blockHash : Hash
  gasUsed : Nat
  effectiveGasPrice : Nat
  l1Fee : Nat
  rootSubmissions : List RootSubmission
  deriving DecidableEq, Repr

/-- What the node answers about a hash. "Absent" is not "failed". -/
inductive Observation where
  | pending
  | receipt (r : Receipt)
  | unknown
  deriving DecidableEq, Repr

structure TrackInput where
  state : TransactionState
  recordedBlockNumber : Option Nat
  recordedBlockHash : Option Hash
  observation : Observation
  headBlockNumber : Nat
  confirmationDepth : Nat
  finalizedBlockNumber : Option Nat
  elapsedSinceSubmitMs : Int
  dropTimeoutMs : Int
  deriving DecidableEq, Repr

inductive TrackReason where
  | terminal | executionReverted | reorgReobserved | confirmed | awaitingFinality | included
  | observedBlockDisappeared | notFoundAfterTimeout | notFoundYet | returnedToMempool | pending
  deriving DecidableEq, Repr

structure TrackResult where
  nextState : TransactionState
  confirmations : Nat
  blockNumber : Option Nat
  blockHash : Option Hash
  reorged : Bool
  reason : TrackReason
  deriving DecidableEq, Repr

/-- The containing block counts as one confirmation. -/
def confirmationsOf (blockNumber headBlockNumber : Nat) : Nat := headBlockNumber + 1 - blockNumber

def TrackInput.keep (input : TrackInput) (reason : TrackReason) : TrackResult where
  nextState := input.state
  confirmations := 0
  blockNumber := input.recordedBlockNumber
  blockHash := input.recordedBlockHash
  reorged := false
  reason := reason

/-- The states no observation moves. `confirmed` is not one of them. -/
def TransactionState.terminal : TransactionState → Bool
  | .reverted | .replaced | .dropped | .failed => true
  | _ => false

/-- The states that claim a block. -/
def TransactionState.inBlock : TransactionState → Bool
  | .confirmed | .included => true
  | _ => false

def trackTransaction (input : TrackInput) : TrackResult :=
  if input.state.terminal then input.keep .terminal
  else
    match input.observation with
    | .receipt receipt =>
      match receipt.status with
      | .reverted => {
          nextState := .reverted
          confirmations := 0
          blockNumber := some receipt.blockNumber
          blockHash := some receipt.blockHash
          reorged := false
          reason := .executionReverted }
      | .success =>
        let reorged :=
          input.recordedBlockHash ≠ none ∧ input.recordedBlockHash ≠ some receipt.blockHash
        let confirmations := confirmationsOf receipt.blockNumber input.headBlockNumber
        let deepEnough := input.confirmationDepth ≤ confirmations
        let final := ∀ n ∈ input.finalizedBlockNumber, receipt.blockNumber ≤ n
        let confirmed := deepEnough ∧ final
        { nextState := if confirmed then .confirmed else .included
          confirmations := confirmations
          blockNumber := some receipt.blockNumber
          blockHash := some receipt.blockHash
          reorged := reorged
          reason :=
            if reorged then .reorgReobserved
            else if confirmed then .confirmed
            else if deepEnough then .awaitingFinality
            else .included }
    | .unknown =>
      if input.state.inBlock then {
          nextState := .reconciliationRequired
          confirmations := 0
          blockNumber := none
          blockHash := none
          reorged := true
          reason := .observedBlockDisappeared }
      else if input.dropTimeoutMs ≤ input.elapsedSinceSubmitMs then {
          nextState := .dropped
          confirmations := 0
          blockNumber := none
          blockHash := none
          reorged := false
          reason := .notFoundAfterTimeout }
      else input.keep .notFoundYet
    | .pending =>
      if input.state.inBlock then {
          nextState := .submitted
          confirmations := 0
          blockNumber := none
          blockHash := none
          reorged := true
          reason := .returnedToMempool }
      else input.keep .pending

/-! ## Pre-submission safety check -/

structure SubmitGuardInput where
  chainId : Nat
  maxFeePerGas : Nat
  feeCapWei : Nat
  attempts : Nat
  maxAttempts : Nat
  eoaAllowedChainIds : List Nat
  /-- `none` for null and for the empty text, which the source treats alike. -/
  safeAddress : Option Address
  dailySpendCapWei : Nat
  spentTodayWei : Nat
  inFlightMaxWei : Nat
  gasLimit : Nat
  l1FeeBoundWei : Nat
  retryReservationWei : Option Nat
  deriving DecidableEq, Repr

inductive BlockReason where
  | eoaSubmissionNotAllowedOnChain (chainId : Nat)
  | dailySpendCapReached | feeAboveCap | maxAttemptsReached | dailySpendCapTooLowForRetry
  deriving DecidableEq, Repr

inductive SubmitGuard where
  | eoa | safeProposal
  | blocked (reason : BlockReason)
  deriving DecidableEq, Repr

inductive Phase where
  | preflight | broadcast
  deriving DecidableEq, Repr

def eoaAnchorEligibleChainIds : List Nat := [5611, 31337]

def isEoaAnchorEligibleChainId (chainId : Nat) : Bool := eoaAnchorEligibleChainIds.contains chainId

def eoaSubmissionAllowed (chainId : Nat) (eoaAllowedChainIds : List Nat) : Bool :=
  isEoaAnchorEligibleChainId chainId && eoaAllowedChainIds.contains chainId

namespace SubmitGuardInput

variable (input : SubmitGuardInput)

def feeCeiling : Nat :=
  if input.maxFeePerGas < input.feeCapWei then input.maxFeePerGas else input.feeCapWei

def projectedWei : Nat :=
  input.spentTodayWei + input.inFlightMaxWei + input.gasLimit * input.feeCeiling +
    input.l1FeeBoundWei

def candidateReserve : Nat := input.gasLimit * input.feeCapWei + input.l1FeeBoundWei

def existingRetryReserve : Nat := input.retryReservationWei.getD 0

def extraRetryReserve : Nat :=
  if input.existingRetryReserve < input.candidateReserve then
    input.candidateReserve - input.existingRetryReserve
  else 0

end SubmitGuardInput

def checkSubmitAllowed (input : SubmitGuardInput) (phase : Phase) : SubmitGuard :=
  if ¬ eoaSubmissionAllowed input.chainId input.eoaAllowedChainIds then
    match input.safeAddress with
    | some _ => .safeProposal
    | none => .blocked (.eoaSubmissionNotAllowedOnChain input.chainId)
  else if input.dailySpendCapWei < input.projectedWei then .blocked .dailySpendCapReached
  else if input.feeCapWei < input.maxFeePerGas then .blocked .feeAboveCap
  else if input.maxAttempts ≤ input.attempts then .blocked .maxAttemptsReached
  else if phase = .broadcast ∧ 0 < input.l1FeeBoundWei ∧
      input.dailySpendCapWei < input.spentTodayWei + input.inFlightMaxWei +
        input.candidateReserve + input.extraRetryReserve then
    .blocked .dailySpendCapTooLowForRetry
  else .eoa

/-- When the guard opens the EOA path, in the order of its five refusals. -/
theorem checkSubmitAllowed_eoa (input : SubmitGuardInput) (phase : Phase) :
    checkSubmitAllowed input phase = .eoa ↔
      eoaSubmissionAllowed input.chainId input.eoaAllowedChainIds = true ∧
      input.projectedWei ≤ input.dailySpendCapWei ∧
      input.maxFeePerGas ≤ input.feeCapWei ∧
      input.attempts < input.maxAttempts ∧
      (phase = .broadcast → 0 < input.l1FeeBoundWei →
        input.spentTodayWei + input.inFlightMaxWei + input.candidateReserve +
          input.extraRetryReserve ≤ input.dailySpendCapWei) := by
  unfold checkSubmitAllowed
  split
  next closed =>
    constructor
    · intro h
      split at h <;> cases h
    · intro h
      exact absurd h.1 closed
  next opened =>
    have allowed : eoaSubmissionAllowed input.chainId input.eoaAllowedChainIds = true := by
      simpa using opened
    simp only [allowed, true_and]
    split
    next exceeded => simp [Nat.not_le.mpr exceeded]
    split
    next fees => simp [Nat.not_le.mpr fees]
    split
    next attempts => simp [Nat.not_lt.mpr attempts]
    next within fees attempts =>
    split
    next short => simp [short.1, short.2.1, Nat.not_le.mpr short.2.2]
    next room =>
      simp only [true_iff]
      refine ⟨Nat.le_of_not_lt within, Nat.le_of_not_lt fees, Nat.lt_of_not_le attempts, ?_⟩
      intro broadcast charged
      exact Nat.le_of_not_lt fun short => room ⟨broadcast, charged, short⟩

/-- Under the fee cap the ceiling a send is projected at is its own quote. -/
theorem feeCeiling_of_le (input : SubmitGuardInput) (h : input.maxFeePerGas ≤ input.feeCapWei) :
    input.feeCeiling = input.maxFeePerGas := by
  unfold SubmitGuardInput.feeCeiling
  split
  · rfl
  · omega

/-- The retry slot tops the existing reservation up to one full candidate. -/
theorem extraRetryReserve_add (input : SubmitGuardInput) :
    input.extraRetryReserve + input.existingRetryReserve =
      max input.candidateReserve input.existingRetryReserve := by
  unfold SubmitGuardInput.extraRetryReserve
  split <;> omega

end MpcRegistry.Worker
