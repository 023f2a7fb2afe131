import MpcRegistry.Worker.TrackPending

/-!
# Which reorgs are recorded

Source: apps/anchor-worker/src/anchor-state.ts:113-221 (trackTransaction) and
apps/anchor-worker/src/anchor-submitter.ts:1525-1556 (trackPending's judgement
and its row in chain.reorg_events). A row that claims a block loses it when the
observation shows no receipt in that block; `trackTransaction` flags this in
every branch but that of a reverted receipt.
-/
namespace MpcRegistry.Worker

/-- The observation shows a receipt, of either status, in block `h`. -/
def Observation.ShowsReceiptIn (observation : Observation) (h : Hash) : Prop :=
  ∃ receipt, observation = .receipt receipt ∧ receipt.blockHash = h

/-- It shows a reverted receipt in some other block. -/
def Observation.RevertedElsewhere (observation : Observation) (h : Hash) : Prop :=
  ∃ receipt, observation = .receipt receipt ∧ receipt.status = .reverted ∧ receipt.blockHash ≠ h

def overturned (row : TransactionRow) (number : Nat) (h : Hash) (now : Timestamp) : ReorgEvent where
  tenantId := row.tenantId
  transactionId := row.id
  previousBlockNumber := number
  previousBlockHash := h
  detectedState := row.state
  observedAt := now

/-- No reorg of a row recorded in block `h` is silent: the flag says whether the
observation lost the block, and every step that judges this input writes the
lost block to `chain.reorg_events`. -/
structure NeverSilent (input : TrackInput) (h : Hash) : Prop where
  lost : ¬ input.observation.ShowsReceiptIn h → (trackTransaction input).reorged = true
  kept : input.observation.ShowsReceiptIn h → (trackTransaction input).reorged = false
  written : ¬ input.observation.ShowsReceiptIn h →
    ∀ config answers clock store row store' number,
      prepareTracking config answers clock store row = (store', .ok input) →
      input.recordedBlockNumber = some number →
      (trackPending config answers clock store row).1.reorgEvents =
        store.reorgEvents ++ [overturned row number h clock.now]

/-! ## The flag -/

theorem inBlock_not_terminal {state : TransactionState} (h : state.inBlock = true) :
    state.terminal = false := by
  cases state <;> first | rfl | cases h

/-- The flag of a row that claims block `h`, branch by branch. -/
theorem trackTransaction_reorged {input : TrackInput} {h : Hash}
    (inBlock : input.state.inBlock = true) (recorded : input.recordedBlockHash = some h) :
    (trackTransaction input).reorged = true ↔
      match input.observation with
      | .receipt receipt => receipt.status = .success ∧ receipt.blockHash ≠ h
      | _ => True := by
  unfold trackTransaction
  simp only [inBlock_not_terminal inBlock, Bool.false_eq_true, if_false]
  cases observed : input.observation with
  | receipt receipt =>
    cases outcome : receipt.status with
    | success =>
      simp only [recorded, ne_eq, reduceCtorEq, not_false_eq_true, Option.some.injEq, true_and,
        decide_eq_true_eq, outcome]
      exact not_congr eq_comm
    | reverted => simp [outcome]
  | unknown => simp [inBlock]
  | pending => simp [inBlock]

/-- The flag is right exactly when no reverted receipt in another block hides
the loss. -/
theorem reorged_iff_lost {input : TrackInput} {h : Hash} (inBlock : input.state.inBlock = true)
    (recorded : input.recordedBlockHash = some h) :
    ((trackTransaction input).reorged = true ↔ ¬ input.observation.ShowsReceiptIn h) ↔
      ¬ input.observation.RevertedElsewhere h := by
  rw [trackTransaction_reorged inBlock recorded]
  unfold Observation.ShowsReceiptIn Observation.RevertedElsewhere
  cases input.observation with
  | receipt receipt =>
    have lost : ¬ (∃ r, Observation.receipt receipt = .receipt r ∧ r.blockHash = h) ↔
        receipt.blockHash ≠ h := by simp
    have hidden : (∃ r, Observation.receipt receipt = .receipt r ∧ r.status = .reverted ∧
        r.blockHash ≠ h) ↔ receipt.status = .reverted ∧ receipt.blockHash ≠ h := by simp
    rw [lost, hidden]
    dsimp only
    cases receipt.status with
    | success => simp
    | reverted => simp
  | unknown => simp
  | pending => simp

/-! ## The row in `chain.reorg_events` -/

@[simp] theorem recordFailedSearch_reorgEvents (config now store row reason error) :
    (recordFailedSearch config now store row reason error).1.reorgEvents = store.reorgEvents := by
  unfold recordFailedSearch
  split <;> rfl

@[simp] theorem followAnchoringTransaction_reorgEvents (config answers now store row reason) :
    (followAnchoringTransaction config answers now store row reason).1.reorgEvents =
      store.reorgEvents := by
  unfold followAnchoringTransaction
  cases row.batch with
  | none => rfl
  | some batch =>
    dsimp only
    cases answers.anchoredBatch batch.batchId (trackedContractOf row config) with
    | error error => exact recordFailedSearch_reorgEvents ..
    | ok anchored =>
      dsimp only
      split
      · split <;> rfl
      · rfl

@[simp] theorem resolveReceipt_reorgEvents (config answers now store row receipt) :
    (resolveReceipt config answers now store row receipt).1.reorgEvents = store.reorgEvents := by
  unfold resolveReceipt
  split
  · exact followAnchoringTransaction_reorgEvents ..
  · rfl
  split
  · rfl
  next batch _ =>
    have same := followAnchoringTransaction_reorgEvents config answers now store row
      .anchoredByAnotherTransaction
    split
    next followed => rw [followed] at same; exact same
    next followed => rw [followed] at same; exact same

/-- What reaches the judgement: no reorg written yet, and an input that carries
the row's own state and block. -/
theorem prepareTracking_ok {config : SubmitterConfig} {answers : ChainAnswers} {clock : Clock}
    {store store' : Store} {row : TransactionRow} {input : TrackInput}
    (h : prepareTracking config answers clock store row = (store', .ok input)) :
    store'.reorgEvents = store.reorgEvents ∧
      ∃ observation head finalized,
        input = trackInputOf config clock row observation head finalized := by
  unfold prepareTracking at h
  cases hash : row.txHash with
  | none => simp [hash] at h
  | some txHash =>
    simp only [hash] at h
    rcases observed : answers.observe txHash with error | ⟨observation, head⟩
    · simp [observed] at h
    rw [observed] at h
    cases observation with
    | receipt receipt =>
      dsimp only at h
      have same := resolveReceipt_reorgEvents config answers clock.now
        (accountReceipt config clock.now store row txHash receipt) row receipt
      rcases resolved : resolveReceipt config answers clock.now
        (accountReceipt config clock.now store row txHash receipt) row receipt with
        ⟨resolvedStore, - | result⟩
      · rw [resolved] at h same
        dsimp only at h same
        cases finality : readFinality config answers with
        | error error => simp [finality] at h
        | ok finalized =>
          rw [finality] at h
          cases h
          exact ⟨same, _, _, _, rfl⟩
      · simp [resolved] at h
    | unknown =>
      cases h
      exact ⟨rfl, _, _, _, rfl⟩
    | pending =>
      cases h
      exact ⟨rfl, _, _, _, rfl⟩

theorem applyTracking_reorgEvents (config now store row observation result) :
    (applyTracking config now store row observation result).1.reorgEvents =
      (recordReorg now store row result).reorgEvents := by
  unfold applyTracking
  split
  · dsimp only
    split <;> rfl
  · dsimp only
    split <;> rfl

/-- A judged step appends the overturned block when it is flagged, and nothing
otherwise. -/
theorem trackPending_reorgEvents {config : SubmitterConfig} {answers : ChainAnswers}
    {clock : Clock} {store store' : Store} {row : TransactionRow} {input : TrackInput}
    {number : Nat} {h : Hash}
    (judged : prepareTracking config answers clock store row = (store', .ok input))
    (atNumber : input.recordedBlockNumber = some number)
    (atHash : input.recordedBlockHash = some h) :
    (trackPending config answers clock store row).1.reorgEvents =
      store.reorgEvents ++
        if (trackTransaction input).reorged then [overturned row number h clock.now] else [] := by
  obtain ⟨same, observation, head, finalized, rfl⟩ := prepareTracking_ok judged
  have number_row : row.blockNumber = some number := atNumber
  have hash_row : row.blockHash = some h := atHash
  unfold trackPending
  rw [judged]
  dsimp only
  rw [applyTracking_reorgEvents]
  unfold recordReorg
  rw [number_row, hash_row]
  cases (trackTransaction (trackInputOf config clock row observation head finalized)).reorged with
  | true => exact congrArg (· ++ [overturned row number h clock.now]) same
  | false => simpa using same

/-! ## The result -/

/-- A confirmed row whose transaction is seen mined, and reverted, in another
block. -/
def revertedElsewhereInput : TrackInput where
  state := .confirmed
  recordedBlockNumber := some 100
  recordedBlockHash := some 0xaa
  observation := .receipt ⟨.reverted, 101, 0xbb, 21000, 1, 0, []⟩
  headBlockNumber := 130
  confirmationDepth := 12
  finalizedBlockNumber := none
  elapsedSinceSubmitMs := 0
  dropTimeoutMs := 600000

end MpcRegistry.Worker
