import MpcRegistry.Worker.Store

/-!
# Admitting and recording one EOA send

Source: apps/anchor-worker/src/anchor-submitter.ts:98-138 (FeeQuote,
feeCeilingOf, PreparedSend), :715-931 (the budget reads, the two guard calls,
countSendAttempt and recordSend of submitPending). The reads of one attempt come
from the ledger it holds the spend lock over; signing is a parameter.
-/
namespace MpcRegistry.Worker

/-- The type does not tie the priority fee to the maximum. -/
inductive FeeQuote where
  | eip1559 (maxFeePerGas maxPriorityFeePerGas : Nat)
  | legacy (gasPrice : Nat)
  deriving DecidableEq, Repr

/-- The most one gas unit can cost under this quote. -/
def feeCeilingOf : FeeQuote → Nat
  | .eip1559 maxFeePerGas _ => maxFeePerGas
  | .legacy gasPrice => gasPrice

/-- A signed transaction's identity; the signed bytes are not read here. -/
structure PreparedSend where
  txHash : Hash
  signer : Address
  nonce : Nat
  gasLimit : Nat
  maxFeePerGas : Nat
  deriving DecidableEq, Repr

/-- The in-flight reservations, each unbounded send priced at the block gas limit. -/
def inFlightMaxWei (inFlight : InFlightSends) (blockGasLimit feeCapWei : Nat) : Nat :=
  inFlight.boundedWei + inFlight.unbounded * blockGasLimit * feeCapWei

/-- The preflight input; the retry reservation is not known yet. -/
def guardInput (config : SubmitterConfig) (attempts spentToday inFlight : Nat) (fees : FeeQuote)
    (l1FeeBound : Nat) : SubmitGuardInput where
  chainId := config.chainId
  maxFeePerGas := feeCeilingOf fees
  feeCapWei := config.feeCapWei
  attempts := attempts
  maxAttempts := config.maxAttempts
  eoaAllowedChainIds := config.eoaAllowedChainIds
  safeAddress := config.safeAddress
  dailySpendCapWei := config.dailySpendCapWei
  spentTodayWei := spentToday
  inFlightMaxWei := inFlight
  gasLimit := config.gasLimit
  l1FeeBoundWei := l1FeeBound
  retryReservationWei := none

/-- Both guard calls of one send, the second with its retry reservation. -/
def sendAllowed (config : SubmitterConfig) (attempts spentToday inFlight : Nat) (fees : FeeQuote)
    (l1FeeBound retryReservationWei : Nat) : Prop :=
  let input := guardInput config attempts spentToday inFlight fees l1FeeBound
  checkSubmitAllowed input .preflight = .eoa ∧
    checkSubmitAllowed { input with retryReservationWei := some retryReservationWei } .broadcast =
      .eoa

instance (config attempts spentToday inFlight fees l1FeeBound retryReservationWei) :
    Decidable (sendAllowed config attempts spentToday inFlight fees l1FeeBound
      retryReservationWei) :=
  inferInstanceAs (Decidable (_ ∧ _))

/-- The row `recordSend` inserts before the broadcast. -/
def sendRecord (config : SubmitterConfig) (transactionId tenantId : Nat) (prepared : PreparedSend)
    (l1FeeBound : Nat) (sentAt : Timestamp) : AnchorSend where
  chainId := config.chainId
  txHash := prepared.txHash
  transactionId := transactionId
  tenantId := tenantId
  signer := some prepared.signer
  nonce := some prepared.nonce
  gasLimit := some prepared.gasLimit
  maxFeePerGas := some prepared.maxFeePerGas
  l1FeeBound := l1FeeBound
  sentAt := sentAt
  checkedAt := none
  settlement := none

/-- A send within the fee cap is allowed when the daily cap holds it on top of
today's spend and the reservations, its attempts are not used up, and, where an
L1 fee is charged, a full candidate and the missing part of its retry slot fit
as well. -/
theorem sendAllowed_iff {config : SubmitterConfig} {attempts spentToday inFlight : Nat}
    {fees : FeeQuote} {l1FeeBound retryReservationWei : Nat}
    (withinCap : feeCeilingOf fees ≤ config.feeCapWei) :
    sendAllowed config attempts spentToday inFlight fees l1FeeBound retryReservationWei ↔
      eoaSubmissionAllowed config.chainId config.eoaAllowedChainIds = true ∧
      spentToday + inFlight + config.gasLimit * feeCeilingOf fees + l1FeeBound ≤
        config.dailySpendCapWei ∧
      attempts < config.maxAttempts ∧
      (0 < l1FeeBound →
        spentToday + inFlight + (config.gasLimit * config.feeCapWei + l1FeeBound) +
          (config.gasLimit * config.feeCapWei + l1FeeBound - retryReservationWei) ≤
            config.dailySpendCapWei) := by
  let input := guardInput config attempts spentToday inFlight fees l1FeeBound
  have projected : input.projectedWei =
      spentToday + inFlight + config.gasLimit * feeCeilingOf fees + l1FeeBound := by
    unfold SubmitGuardInput.projectedWei
    rw [feeCeiling_of_le input withinCap]
    rfl
  have extra : { input with retryReservationWei := some retryReservationWei }.extraRetryReserve =
      config.gasLimit * config.feeCapWei + l1FeeBound - retryReservationWei := by
    unfold SubmitGuardInput.extraRetryReserve
    split
    · rfl
    next covered => exact (Nat.sub_eq_zero_of_le (Nat.le_of_not_lt covered)).symm
  refine (and_congr (checkSubmitAllowed_eoa ..) (checkSubmitAllowed_eoa ..)).trans ?_
  constructor
  · rintro ⟨-, allowed, within, -, left, room⟩
    refine ⟨allowed, ?_, left, fun charged => ?_⟩
    · rw [← projected]
      exact within
    · rw [← extra]
      exact room rfl charged
  · rintro ⟨allowed, within, left, room⟩
    rw [← projected] at within
    refine ⟨⟨allowed, within, withinCap, left, nofun⟩, allowed, within, withinCap, left, ?_⟩
    intro _ charged
    rw [extra]
    exact room charged

end MpcRegistry.Worker
