import MpcRegistry.Worker.Store

/-!
# Tracking one submitted transaction

Source: apps/anchor-worker/src/anchor-submitter.ts:1164-1307
(requireReconciliation, recordFailedSearch, clearFailedSearch,
followAnchoringTransaction), :1396-1653 (storedRoot, trackPending,
recordFailedRead, fail). The chain's answers are parameters of the step;
`trackPending` is split at its call of `trackTransaction`, since everything
before it can still end the step early.
-/
namespace MpcRegistry.Worker

structure AnchoredBatch where
  root : Hash
  txHash : Option Hash
  deriving DecidableEq, Repr

/-- What the node answers during one step. The receipt and the head are asked
for together, so one failed read is the failure of both. -/
structure ChainAnswers where
  observe : Hash → Except String (Observation × Nat)
  anchoredBatch : Hash → Address → Except String (Option AnchoredBatch)
  finalizedBlockNumber : FinalityTag → Except String Nat

/-! ## Statements -/

def setFailed (now : Timestamp) (reason : String) : RowChange where
  apply row :=
    { row with
      state := .failed, lastError := some reason
      chainSearchFailedSince := none, retryAfter := none, updatedAt := now }
  id_apply _ := rfl

def setReconciliationRequired (now : Timestamp) (lastError : String) : RowChange where
  apply row :=
    { row with
      state := .reconciliationRequired, lastError := some lastError
      chainSearchFailedSince := none, retryAfter := none, updatedAt := now }
  id_apply _ := rfl

def setFailedSearch (config : SubmitterConfig) (now : Timestamp) (message : String) :
    RowChange where
  apply row :=
    { row with
      lastError := some message
      chainSearchFailedSince := some (row.chainSearchFailedSince.getD now)
      retryAfter := some (now + micros config.chainSearchRetryMs), updatedAt := now }
  id_apply _ := rfl

def setSearchCleared : RowChange where
  apply row := { row with chainSearchFailedSince := none, retryAfter := none }
  id_apply _ := rfl

def setFollowed (now : Timestamp) (txHash : Hash) (contract : Address) (reason : String) :
    RowChange where
  apply row :=
    { row with
      state := .submitted, txHash := some txHash, contractAddress := some contract
      blockNumber := none, blockHash := none, confirmations := 0, confirmedAt := none
      reorgWatchUntil := none, lastError := some reason, updatedAt := now }
  id_apply _ := rfl

def setFailedRead (config : SubmitterConfig) (now : Timestamp) (reason message : String) :
    RowChange where
  apply row :=
    { row with
      lastError := some message
      retryAfter :=
        if reason = "finality_read_failed" then some (now + micros config.chainSearchRetryMs)
        else row.retryAfter
      updatedAt := now }
  id_apply _ := rfl

def setReceiptCost (receipt : Receipt) : RowChange where
  apply row :=
    { row with
      gasUsed := some receipt.gasUsed, effectiveGasPrice := some receipt.effectiveGasPrice }
  id_apply _ := rfl

def setUpdatedAt (now : Timestamp) : RowChange where
  apply row := { row with updatedAt := now }
  id_apply _ := rfl

def setTracked (config : SubmitterConfig) (now : Timestamp) (result : TrackResult) :
    RowChange where
  apply row :=
    { row with
      state := result.nextState, blockNumber := result.blockNumber, blockHash := result.blockHash
      confirmations := result.confirmations
      confirmedAt := if result.nextState = .confirmed then some now else none
      reorgWatchUntil :=
        if result.nextState = .confirmed then some (now + micros config.reorgWatchMs) else none
      updatedAt := now }
  id_apply _ := rfl

/-! ## Steps that end early -/

def fail (now : Timestamp) (store : Store) (id : Nat) (reason : String) : Store :=
  store.updateRow id (setFailed now reason)

def requireReconciliation (now : Timestamp) (store : Store) (row : TransactionRow)
    (reason lastError : String) : Store × StepResult :=
  (store.updateRow row.id (setReconciliationRequired now lastError),
    .move row .reconciliationRequired (some reason))

/-- Searches have kept failing since `failedSince` for the whole give-up time. -/
def searchGivenUp (config : SubmitterConfig) (now failedSince : Timestamp) : Bool :=
  failedSince + micros config.chainSearchGiveUpMs ≤ now

def recordFailedSearch (config : SubmitterConfig) (now : Timestamp) (store : Store)
    (row : TransactionRow) (reason error : String) : Store × StepResult :=
  let message := errorText config (some reason) error
  let store := store.updateRow row.id (setFailedSearch config now message)
  if searchGivenUp config now (row.chainSearchFailedSince.getD now) then
    requireReconciliation now store row "chain_search_unavailable"
      (errorText config (some "chain_search_unavailable") error)
  else (store, .wait row reason)

/-- The source's `WHERE` leaves alone the rows whose two columns are already null. -/
def clearFailedSearch (store : Store) (row : TransactionRow) : Store :=
  store.updateRow row.id setSearchCleared

def recordFailedRead (config : SubmitterConfig) (now : Timestamp) (store : Store)
    (row : TransactionRow) (reason error : String) : Store × StepResult :=
  (store.updateRow row.id (setFailedRead config now reason (errorText config (some reason) error)),
    .wait row reason)

def trackedContractOf (row : TransactionRow) (config : SubmitterConfig) : Address :=
  row.contractAddress.getD config.contractAddress

inductive FollowReason where
  | duplicateSendReverted | anchoredByAnotherTransaction
  deriving DecidableEq, Repr

def FollowReason.text : FollowReason → String
  | .duplicateSendReverted => "duplicate_send_reverted"
  | .anchoredByAnotherTransaction => "anchored_by_another_transaction"

def FollowReason.failedText : FollowReason → String
  | .duplicateSendReverted => "duplicate_check_failed"
  | .anchoredByAnotherTransaction => "anchored_elsewhere_check_failed"

/-- `none` when there is nothing to follow and the caller goes on. -/
def followAnchoringTransaction (config : SubmitterConfig) (answers : ChainAnswers)
    (now : Timestamp) (store : Store) (row : TransactionRow) (reason : FollowReason) :
    Store × Option StepResult :=
  match row.batch with
  | none => (store, none)
  | some batch =>
    let contract := trackedContractOf row config
    match answers.anchoredBatch batch.batchId contract with
    | .error error =>
      let (store, result) := recordFailedSearch config now store row reason.failedText error
      (store, some result)
    | .ok anchored =>
      let store := clearFailedSearch store row
      match anchored with
      | some ⟨root, some txHash⟩ =>
        if root ≠ batch.merkleRoot ∨ row.txHash = some txHash then (store, none)
        else
          let store := store.updateRow row.id (setFollowed now txHash contract reason.text)
          (clearFailedSearch store row, some (.move row .submitted (some reason.text)))
      | _ => (store, none)

def storedRoot (receipt : Receipt) (contract : Address) (batch : AnchorBatch) : Bool :=
  receipt.rootSubmissions.any fun log =>
    log.contract = contract ∧ log.batchId = batch.batchId ∧ log.root = batch.merkleRoot

/-! ## Before the judgement -/

/-- The cost of a seen receipt enters both ledgers, whatever the step decides. -/
def accountReceipt (config : SubmitterConfig) (now : Timestamp) (store : Store)
    (row : TransactionRow) (txHash : Hash) (receipt : Receipt) : Store :=
  let store := store.updateRow row.id (setReceiptCost receipt)
  { store with
    ledger := store.ledger.recordReceipt now config.chainId txHash row.id row.tenantId receipt }

/-- A receipt that did not store the batch either follows the transaction that
did, or, when it succeeded, goes to a person. -/
def resolveReceipt (config : SubmitterConfig) (answers : ChainAnswers) (now : Timestamp)
    (store : Store) (row : TransactionRow) (receipt : Receipt) : Store × Option StepResult :=
  match receipt.status, row.batch with
  | .reverted, _ =>
    followAnchoringTransaction config answers now store row .duplicateSendReverted
  | .success, none => (store, none)
  | .success, some batch =>
    if storedRoot receipt (trackedContractOf row config) batch then (store, none)
    else
      match followAnchoringTransaction config answers now store row
        .anchoredByAnotherTransaction with
      | (store, some followed) => (store, some followed)
      | (store, none) =>
        let (store, result) := requireReconciliation now store row
          "receipt_without_root_submitted" "receipt_without_root_submitted"
        (store, some result)

def trackInputOf (config : SubmitterConfig) (clock : Clock) (row : TransactionRow)
    (observation : Observation) (headBlockNumber : Nat) (finalizedBlockNumber : Option Nat) :
    TrackInput where
  state := row.state
  recordedBlockNumber := row.blockNumber
  recordedBlockHash := row.blockHash
  observation := observation
  headBlockNumber := headBlockNumber
  confirmationDepth := config.confirmationDepth
  finalizedBlockNumber := finalizedBlockNumber
  elapsedSinceSubmitMs := match row.submittedAt with
    | some submittedAt => clock.nowMs - (submittedAt / 1000 : Nat)
    | none => 0
  dropTimeoutMs := config.dropTimeoutMs

/-- No tag: depth alone, and no read. -/
def readFinality (config : SubmitterConfig) (answers : ChainAnswers) :
    Except String (Option Nat) :=
  if config.finalityTag = .none then .ok none
  else (answers.finalizedBlockNumber config.finalityTag).map some

/-- Everything up to the call of `trackTransaction`: the step's own result when
it ends there, else the input it judges. -/
def prepareTracking (config : SubmitterConfig) (answers : ChainAnswers) (clock : Clock)
    (store : Store) (row : TransactionRow) : Store × Except StepResult TrackInput :=
  match row.txHash with
  | none => (fail clock.now store row.id "TX_HASH_MISSING", .error (.move row .failed none))
  | some txHash =>
    match answers.observe txHash with
    | .error error =>
      let (store, result) :=
        recordFailedRead config clock.now store row "observation_failed" error
      (store, .error result)
    | .ok (.receipt receipt, headBlockNumber) =>
      let store := accountReceipt config clock.now store row txHash receipt
      match resolveReceipt config answers clock.now store row receipt with
      | (store, some result) => (store, .error result)
      | (store, none) =>
        let store := clearFailedSearch store row
        match readFinality config answers with
        | .error error =>
          let (store, result) :=
            recordFailedRead config clock.now store row "finality_read_failed" error
          (store, .error result)
        | .ok finalized =>
          (store,
            .ok (trackInputOf config clock row (.receipt receipt) headBlockNumber finalized))
    | .ok (observation, headBlockNumber) =>
      (store, .ok (trackInputOf config clock row observation headBlockNumber none))

/-! ## After the judgement -/

def TrackReason.text : TrackReason → String
  | .terminal => "terminal"
  | .executionReverted => "execution_reverted"
  | .reorgReobserved => "reorg_reobserved"
  | .confirmed => "confirmed"
  | .awaitingFinality => "awaiting_finality"
  | .included => "included"
  | .observedBlockDisappeared => "observed_block_disappeared"
  | .notFoundAfterTimeout => "not_found_after_timeout"
  | .notFoundYet => "not_found_yet"
  | .returnedToMempool => "returned_to_mempool"
  | .pending => "pending"

def Observation.isReceipt : Observation → Bool
  | .receipt _ => true
  | _ => false

/-- The overturned block is kept when the row had recorded one. -/
def recordReorg (now : Timestamp) (store : Store) (row : TransactionRow) (result : TrackResult) :
    Store :=
  match result.reorged, row.blockNumber, row.blockHash with
  | true, some number, some hash =>
    { store with
      reorgEvents := store.reorgEvents ++
        [{ tenantId := row.tenantId
           transactionId := row.id
           previousBlockNumber := number
           previousBlockHash := hash
           detectedState := row.state
           observedAt := now }] }
  | _, _, _ => store

def applyTracking (config : SubmitterConfig) (now : Timestamp) (store : Store)
    (row : TransactionRow) (observation : Observation) (result : TrackResult) :
    Store × StepResult :=
  let store := recordReorg now store row result
  if result.nextState = row.state ∧ result.blockHash = row.blockHash then
    let store := store.updateRow row.id (setUpdatedAt now)
    (if observation.isReceipt then clearFailedSearch store row else store,
      { StepResult.wait row result.reason.text with waiting := row.state ≠ .confirmed })
  else
    let store := store.updateRow row.id (setTracked config now result)
    (if observation.isReceipt ∨ result.nextState = .reconciliationRequired ∨
        result.nextState = .dropped then clearFailedSearch store row else store,
      .move row result.nextState (some result.reason.text))

def trackPending (config : SubmitterConfig) (answers : ChainAnswers) (clock : Clock)
    (store : Store) (row : TransactionRow) : Store × StepResult :=
  match prepareTracking config answers clock store row with
  | (store, .error result) => (store, result)
  | (store, .ok input) =>
    applyTracking config clock.now store row input.observation (trackTransaction input)

/-! ## The rows a step leaves alone -/

section KeepsOthers

open Store (KeepsOthers)

variable (config : SubmitterConfig) (answers : ChainAnswers) (clock : Clock) (now : Timestamp)
  (store : Store) (row : TransactionRow)

theorem recordFailedSearch_keepsOthers (reason error : String) :
    KeepsOthers row.id store (recordFailedSearch config now store row reason error).1 := by
  unfold recordFailedSearch
  refine .trans (.updateRow (setFailedSearch config now (errorText config (some reason) error))) ?_
  dsimp only
  split
  · exact .updateRow _
  · exact .refl

theorem followAnchoringTransaction_keepsOthers (reason : FollowReason) :
    KeepsOthers row.id store
      (followAnchoringTransaction config answers now store row reason).1 := by
  unfold followAnchoringTransaction
  cases row.batch with
  | none => exact .refl
  | some batch =>
    dsimp only
    cases answers.anchoredBatch batch.batchId (trackedContractOf row config) with
    | error error => exact recordFailedSearch_keepsOthers ..
    | ok anchored =>
      refine .trans (.updateRow setSearchCleared) ?_
      dsimp only
      split
      · split
        · exact .refl
        · exact .trans (.updateRow _) (.updateRow _)
      · exact .refl

theorem resolveReceipt_keepsOthers (receipt : Receipt) :
    KeepsOthers row.id store (resolveReceipt config answers now store row receipt).1 := by
  unfold resolveReceipt
  split
  · exact followAnchoringTransaction_keepsOthers ..
  · exact .refl
  split
  · exact .refl
  next batch _ =>
    have kept := followAnchoringTransaction_keepsOthers config answers now store row
      .anchoredByAnotherTransaction
    split
    next followed => rw [followed] at kept; exact kept
    next followed => rw [followed] at kept; exact kept.trans (.updateRow _)

theorem accountReceipt_keepsOthers (txHash : Hash) (receipt : Receipt) :
    KeepsOthers row.id store (accountReceipt config now store row txHash receipt) :=
  ⟨(KeepsOthers.updateRow (setReceiptCost receipt)).kept⟩

theorem prepareTracking_keepsOthers :
    KeepsOthers row.id store (prepareTracking config answers clock store row).1 := by
  unfold prepareTracking
  cases row.txHash with
  | none => exact .updateRow _
  | some txHash =>
    dsimp only
    rcases answers.observe txHash with error | ⟨observation, head⟩
    · exact .updateRow _
    cases observation with
    | receipt receipt =>
      have kept := (accountReceipt_keepsOthers config clock.now store row txHash receipt).trans
        (resolveReceipt_keepsOthers config answers clock.now
          (accountReceipt config clock.now store row txHash receipt) row receipt)
      dsimp only
      rcases resolved : resolveReceipt config answers clock.now
        (accountReceipt config clock.now store row txHash receipt) row receipt with
        ⟨resolvedStore, - | result⟩
      · rw [resolved] at kept
        dsimp only
        cases readFinality config answers with
        | error error => exact kept.trans (.trans (.updateRow _) (.updateRow _))
        | ok finalized => exact kept.trans (.updateRow _)
      · rw [resolved] at kept
        exact kept
    | unknown => exact .refl
    | pending => exact .refl

theorem recordReorg_keepsOthers (result : TrackResult) :
    KeepsOthers row.id store (recordReorg now store row result) := by
  unfold recordReorg
  split <;> exact ⟨fun _ h _ => h⟩

theorem applyTracking_keepsOthers (observation : Observation) (result : TrackResult) :
    KeepsOthers row.id store (applyTracking config now store row observation result).1 := by
  refine .trans (recordReorg_keepsOthers now store row result) ?_
  unfold applyTracking
  dsimp only
  split
  · refine .trans (.updateRow (setUpdatedAt now)) ?_
    dsimp only
    split
    · exact .updateRow _
    · exact .refl
  · refine .trans (.updateRow (setTracked config now result)) ?_
    dsimp only
    split
    · exact .updateRow _
    · exact .refl

/-- Tracking one row changes no other. -/
theorem trackPending_keepsOthers :
    KeepsOthers row.id store (trackPending config answers clock store row).1 := by
  have prepared := prepareTracking_keepsOthers config answers clock store row
  unfold trackPending
  rcases judged : prepareTracking config answers clock store row with ⟨store', result | input⟩
  · rw [judged] at prepared
    exact prepared
  · rw [judged] at prepared
    exact prepared.trans (applyTracking_keepsOthers ..)

end KeepsOthers

end MpcRegistry.Worker
