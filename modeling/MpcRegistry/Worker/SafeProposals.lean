import MpcRegistry.Library.Transition
import MpcRegistry.Worker.TrackPending

/-!
# Applying the results of Safe proposals

Source: apps/anchor-worker/src/anchor-submitter.ts:513-637 (trackProposals,
trackProposal, closeUnexecutable), :1318-1394 (proposeToSafe), :2236-2466
(applyMove, refuseOnChain), apps/api/src/routes/registry.ts:714-880 (resubmit)
and packages/db/migrations/0014, 0101 and 0135 (one active proposal per row, the
frozen contract of a hash, the frozen identity of a resolved proposal). The
status of a proposal is read outside any transaction. The transaction that
applies it updates the proposal and then the row, each by id alone, and keeps
both locks until it ends; the other steps on a row run while no such lock is
held.
-/
namespace MpcRegistry.Worker.SafeProposals

open Library

inductive ProposalState where
  | proposed | executed | rejected | expired
  deriving DecidableEq, Repr

/-- A row of `chain.anchor_proposals`. -/
structure AnchorProposal where
  id : Nat
  tenantId : Nat
  transactionId : Nat
  chainId : Nat
  contractAddress : Address
  safeTxHash : Option Hash
  state : ProposalState
  resolvedAt : Option Timestamp
  deriving DecidableEq, Repr

/-- A row of `chain.safe_execution_history`. -/
structure SafeExecution where
  proposalId : Nat
  transactionId : Nat
  tenantId : Nat
  chainId : Nat
  executionTxHash : Hash
  deriving DecidableEq, Repr

def SafeExecution.key (e : SafeExecution) : Nat × Hash := (e.proposalId, e.executionTxHash)

/-- The answers of the Safe service that end a proposal. -/
inductive Outcome where
  | executed (transactionHash : Hash)
  | rejected
  | replaced
  deriving DecidableEq, Repr

def Outcome.target : Outcome → ProposalState
  | .executed _ => .executed
  | .rejected | .replaced => .rejected

def setExecuted (now : Timestamp) (txHash : Hash) (contract : Address) : RowChange where
  apply row :=
    { row with
      state := .submitted, txHash := some txHash, contractAddress := some contract
      submittedAt := some now, updatedAt := now }
  id_apply _ := rfl

def setUnexecutable (now : Timestamp) (reason : String) : RowChange := setFailed now reason

/-- What an outcome writes to the proposal's row. -/
def Outcome.rowChange (outcome : Outcome) (now : Timestamp) (proposal : AnchorProposal) :
    RowChange :=
  match outcome with
  | .executed txHash => setExecuted now txHash proposal.contractAddress
  | .rejected => setUnexecutable now "safe_proposal_rejected"
  | .replaced => setUnexecutable now "safe_proposal_replaced"

def AnchorProposal.resolve (p : AnchorProposal) (state : ProposalState) (now : Timestamp) :
    AnchorProposal :=
  { p with state := state, resolvedAt := some now }

theorem AnchorProposal.resolve_id (state : ProposalState) (now : Timestamp)
    (p : AnchorProposal) : (p.resolve state now).id = p.id := rfl

/-- The trigger of 0135 raises: a resolved proposal may only be written again
with the state and the time it already has. -/
def AnchorProposal.Frozen (p : AnchorProposal) (state : ProposalState) (now : Timestamp) : Prop :=
  (p.state = .executed ∨ p.state = .rejected) ∧ ¬ (p.state = state ∧ p.resolvedAt = some now)

instance (p : AnchorProposal) (state now) : Decidable (p.Frozen state now) :=
  inferInstanceAs (Decidable (_ ∧ _))

/-- The trigger of 0101 raises: the contract recorded with a hash may not change
while the hash stays. -/
def ContractFrozen (row row' : TransactionRow) : Prop :=
  row.txHash ≠ none ∧ row'.txHash = row.txHash ∧ row'.contractAddress ≠ row.contractAddress

instance (row row') : Decidable (ContractFrozen row row') :=
  inferInstanceAs (Decidable (_ ∧ _ ∧ _))

def setProposed (now : Timestamp) (contract : Address) : RowChange where
  apply row :=
    { row with
      state := .proposed, contractAddress := some contract, lastError := none, updatedAt := now }
  id_apply _ := rfl

/-- The reset of a resubmission, onto `chainId`. -/
def setResubmitted (now : Timestamp) (chainId : Nat) (lastError : String) : RowChange where
  apply row :=
    { row with
      state := .created, attempts := 0, chainId := chainId, txHash := none
      contractAddress := none, blockNumber := none, blockHash := none, confirmations := 0
      confirmedAt := none, submittedAt := none, chainSearchFailedSince := none
      retryAfter := none, reorgWatchUntil := none, lastError := some lastError, updatedAt := now }
  id_apply _ := rfl

/-- A move refused because the chain holds the batch: the row follows the
transaction that stored it. -/
def setAdopted (now : Timestamp) (txHash : Hash) (contract : Address) : RowChange where
  apply row :=
    { row with
      state := .submitted, txHash := some txHash
      contractAddress :=
        if row.txHash = some txHash ∧ row.contractAddress ≠ none then row.contractAddress
        else some contract
      blockNumber := none, blockHash := none, confirmations := 0, confirmedAt := none
      reorgWatchUntil := none, submittedAt := some (row.submittedAt.getD now)
      chainSearchFailedSince := none, retryAfter := none
      lastError := some "reconciled_from_chain", updatedAt := now }
  id_apply _ := rfl

def TransactionState.resubmittable : TransactionState → Bool
  | .dropped | .reconciliationRequired | .failed | .reverted => true
  | _ => false

/-- What `claimPending` picks. -/
def TransactionState.claimable : TransactionState → Bool
  | .created | .submitted | .included | .confirmed => true
  | _ => false

/-- Where a worker's pass over one proposal stands. `proposal` is the row its
SELECT returned; `now` is the start of its transaction. -/
inductive Phase where
  | idle
  | selected (proposal : AnchorProposal)
  | answered (proposal : AnchorProposal) (outcome : Outcome)
  | begun (proposal : AnchorProposal) (outcome : Outcome) (now : Timestamp)
  | proposalUpdated (proposal : AnchorProposal) (outcome : Outcome) (now : Timestamp)
  | rowUpdated (proposal : AnchorProposal) (outcome : Outcome) (now : Timestamp)

/-- The proposal a worker works on. -/
def Phase.proposal? : Phase → Option AnchorProposal
  | .idle => none
  | .selected p | .answered p _ | .begun p _ _ | .proposalUpdated p _ _ | .rowUpdated p _ _ => some p

def Phase.LocksProposal (id : Nat) : Phase → Prop
  | .proposalUpdated p _ _ | .rowUpdated p _ _ => p.id = id
  | _ => False

def Phase.LocksRow (id : Nat) : Phase → Prop
  | .rowUpdated p _ _ => p.transactionId = id
  | _ => False

structure State where
  store : Store
  proposals : Table AnchorProposal.id
  history : Table SafeExecution.key
  phase : Nat → Phase

def State.setPhase (s : State) (w : Nat) (phase : Phase) : State :=
  { s with phase := Function.update s.phase w phase }

def State.RowFree (s : State) (id : Nat) : Prop := ∀ w, ¬ (s.phase w).LocksRow id

def State.ProposalFree (s : State) (id : Nat) : Prop := ∀ w, ¬ (s.phase w).LocksProposal id

/-- The committed outcome: the proposal resolves, an execution enters the
history, and the row takes the outcome. -/
def State.applyOutcome (s : State) (proposal : AnchorProposal) (outcome : Outcome)
    (now : Timestamp) : State :=
  { s with
    proposals := s.proposals.update (·.id = proposal.id) (·.resolve outcome.target now)
      (AnchorProposal.resolve_id outcome.target now)
    history := match outcome with
      | .executed txHash => s.history.insertIfAbsent
          ⟨proposal.id, proposal.transactionId, proposal.tenantId, proposal.chainId, txHash⟩
      | _ => s.history
    store := s.store.updateRow proposal.transactionId (outcome.rowChange now proposal) }

inductive Action where
  | select (w : Nat)
  | answer (w : Nat)
  | begin (w : Nat)
  | updateProposal (w : Nat)
  | updateRow (w : Nat)
  | commit (w : Nat)
  /-- The transaction rolls back, or the answer leaves the proposal as it is. -/
  | abort (w : Nat)
  | submit | propose | track | resubmit | move
  deriving DecidableEq, Repr

inductive Step : State → Action → State → Prop where
  /-- One of the open proposals `trackProposals` selects; its recheck interval
  and its limit only select fewer. -/
  | select (w : Nat) (proposal : AnchorProposal) {s} (idle : s.phase w = .idle)
    (present : proposal ∈ s.proposals) (proposed : proposal.state = .proposed)
    (uploaded : proposal.safeTxHash ≠ none) :
    Step s (.select w) (s.setPhase w (.selected proposal))
  | answer (w : Nat) (outcome : Outcome) {s proposal}
    (selected : s.phase w = .selected proposal) :
    Step s (.answer w) (s.setPhase w (.answered proposal outcome))
  | begin (w : Nat) (now : Timestamp) {s proposal outcome}
    (answered : s.phase w = .answered proposal outcome) :
    Step s (.begin w) (s.setPhase w (.begun proposal outcome now))
  | updateProposal (w : Nat) {s proposal outcome now current}
    (begun : s.phase w = .begun proposal outcome now) (free : s.ProposalFree proposal.id)
    (present : current ∈ s.proposals) (same : current.id = proposal.id)
    (passes : ¬ current.Frozen outcome.target now) :
    Step s (.updateProposal w) (s.setPhase w (.proposalUpdated proposal outcome now))
  | updateRow (w : Nat) {s proposal outcome now row}
    (updated : s.phase w = .proposalUpdated proposal outcome now)
    (free : s.RowFree proposal.transactionId)
    (present : row ∈ s.store.transactions) (same : row.id = proposal.transactionId)
    (passes : ¬ ContractFrozen row ((outcome.rowChange now proposal).apply row)) :
    Step s (.updateRow w) (s.setPhase w (.rowUpdated proposal outcome now))
  | commit (w : Nat) {s proposal outcome now}
    (updated : s.phase w = .rowUpdated proposal outcome now) :
    Step s (.commit w) ((s.applyOutcome proposal outcome now).setPhase w .idle)
  | abort (w : Nat) {s} : Step s (.abort w) (s.setPhase w .idle)
  /-- Whatever `submitPending` does to a created row short of a proposal. -/
  | submit (row : TransactionRow) (change : RowChange) {s}
    (present : row ∈ s.store.transactions) (created : row.state = .created)
    (free : s.RowFree row.id) :
    Step s .submit { s with store := s.store.updateRow row.id change }
  | propose (row : TransactionRow) (proposal : AnchorProposal) (now : Timestamp) {s}
    (present : row ∈ s.store.transactions) (created : row.state = .created)
    (free : s.RowFree row.id) (own : proposal.transactionId = row.id)
    (proposed : proposal.state = .proposed)
    (fresh : ∀ p ∈ s.proposals, p.id ≠ proposal.id)
    (noneOpen : ∀ p ∈ s.proposals, p.transactionId = row.id → p.state ≠ .proposed) :
    Step s .propose
      { s with
        proposals := s.proposals.insertIfAbsent proposal
        store := s.store.updateRow row.id (setProposed now proposal.contractAddress) }
  | track (config : SubmitterConfig) (answers : ChainAnswers) (clock : Clock)
    (row : TransactionRow) {s} (present : row ∈ s.store.transactions)
    (claimed : TransactionState.claimable row.state = true) (free : s.RowFree row.id) :
    Step s .track { s with store := (trackPending config answers clock s.store row).1 }
  | resubmit (row : TransactionRow) (now : Timestamp) {s} (present : row ∈ s.store.transactions)
    (resubmittable : TransactionState.resubmittable row.state = true) (free : s.RowFree row.id)
    (lastError : String) :
    Step s .resubmit
      { s with store := s.store.updateRow row.id (setResubmitted now row.chainId lastError) }
  /-- A chain move: the row goes to the requested chain, follows the anchor found
  on this one, or goes to a person. -/
  | move (row : TransactionRow) (change : RowChange) {s} (present : row ∈ s.store.transactions)
    (movable : TransactionState.resubmittable row.state = true) (free : s.RowFree row.id)
    (noneOpen : ∀ p ∈ s.proposals, p.transactionId = row.id → p.state ≠ .proposed)
    (decided : (∃ now chainId lastError, change = setResubmitted now chainId lastError) ∨
      (∃ now txHash contract, change = setAdopted now txHash contract) ∨
      ∃ now lastError, change = setReconciliationRequired now lastError) :
    Step s .move { s with store := s.store.updateRow row.id change }

/-- An open proposal's row is proposed, and has no other open proposal. -/
structure Paired (store : Store) (proposals : Table AnchorProposal.id) : Prop where
  row : ∀ p ∈ proposals, p.state = .proposed →
    ∃ row ∈ store.transactions, row.id = p.transactionId ∧ row.state = .proposed
  unique : ∀ p ∈ proposals, ∀ q ∈ proposals, p.state = .proposed → q.state = .proposed →
    p.transactionId = q.transactionId → p = q
  /-- Nothing in the source writes this state. -/
  not_expired : ∀ p ∈ proposals, p.state ≠ .expired

def system : System State Action where
  initial s := Paired s.store s.proposals ∧ ∀ w, s.phase w = .idle
  step := Step

/-- A row that the commit of an outcome changes is proposed, for the very
proposal whose outcome it is. -/
def OutcomesGuarded (s : State) : Prop :=
  ∀ w t, Step s (.commit w) t → ∀ row ∈ s.store.transactions, row ∉ t.store.transactions →
    row.state = .proposed ∧ ∃ p ∈ s.proposals, p.state = .proposed ∧ p.transactionId = row.id ∧
      ∃ read ∈ (s.phase w).proposal?, read.id = p.id

/-- No transaction writes a proposal's result a second time at the very time the
first one did. -/
def Unrepeated (s : State) : Action → Prop
  | .updateProposal w => ∀ proposal outcome now, s.phase w = .begun proposal outcome now →
    ∀ current ∈ s.proposals, current.id = proposal.id →
      ¬ (current.state = outcome.target ∧ current.resolvedAt = some now)
  | _ => True

variable {s t : State}

theorem setPhase_phase (w : Nat) (phase : Phase) (v : Nat) :
    (s.setPhase w phase).phase v = if v = w then phase else s.phase v := by
  simp [State.setPhase, Function.update_apply]

theorem target_resolved (outcome : Outcome) :
    outcome.target = .executed ∨ outcome.target = .rejected := by
  cases outcome with
  | executed => exact Or.inl rfl
  | rejected => exact Or.inr rfl
  | replaced => exact Or.inr rfl

/-! ## The invariant -/

/-- A worker that has updated a proposal keeps its lock, alone, and the proposal
it found under it is still open. -/
structure Invariant (s : State) : Prop where
  paired : Paired s.store s.proposals
  known : ∀ w, ∀ p ∈ (s.phase w).proposal?,
    ∃ q ∈ s.proposals, q.id = p.id ∧ q.transactionId = p.transactionId
  locked : ∀ w id, (s.phase w).LocksProposal id → ∀ q ∈ s.proposals, q.id = id →
    q.state = .proposed
  alone : ∀ w v id, (s.phase w).LocksProposal id → (s.phase v).LocksProposal id → w = v

/-- A change of rows that are not proposed keeps the pairing. -/
theorem Paired.of_keepsOthers {store store' : Store} {proposals : Table AnchorProposal.id}
    (paired : Paired store proposals) {row : TransactionRow} (present : row ∈ store.transactions)
    (other : row.state ≠ .proposed) (kept : Store.KeepsOthers row.id store store') :
    Paired store' proposals where
  row p hp opened := by
    obtain ⟨r, hr, same, proposed⟩ := paired.row p hp opened
    refine ⟨r, kept.kept r hr fun here => other ?_, same, proposed⟩
    rw [← Table.eq_of_key hr present here]
    exact proposed
  unique := paired.unique
  not_expired := paired.not_expired

theorem Invariant.of_store (inv : Invariant s) {store : Store} {row : TransactionRow}
    (present : row ∈ s.store.transactions) (other : row.state ≠ .proposed)
    (kept : Store.KeepsOthers row.id s.store store) : Invariant { s with store := store } :=
  ⟨inv.paired.of_keepsOthers present other kept, inv.known, inv.locked, inv.alone⟩

/-- Moving one worker, when what it now holds and locks is right. -/
theorem Invariant.setPhase (inv : Invariant s) {w : Nat} {phase : Phase}
    (known : ∀ p ∈ phase.proposal?,
      ∃ q ∈ s.proposals, q.id = p.id ∧ q.transactionId = p.transactionId)
    (locked : ∀ id, phase.LocksProposal id →
      (∀ q ∈ s.proposals, q.id = id → q.state = .proposed) ∧
        ∀ v, v ≠ w → ¬ (s.phase v).LocksProposal id) : Invariant (s.setPhase w phase) where
  paired := inv.paired
  known v p hp := by
    rw [setPhase_phase] at hp
    split at hp
    · exact known p hp
    · exact inv.known v p hp
  locked v id h := by
    rw [setPhase_phase] at h
    split at h
    · exact (locked id h).1
    · exact inv.locked v id h
  alone v u id hv hu := by
    rw [setPhase_phase] at hv hu
    split at hv
    next here =>
      split at hu
      next here' => exact here.trans here'.symm
      next there => exact absurd hu ((locked id hv).2 u there)
    next there =>
      split at hu
      next => exact absurd hv ((locked id hu).2 v there)
      next => exact inv.alone v u id hv hu

/-- A worker that moves on keeps what it holds and locks no more than before. -/
theorem Invariant.advance (inv : Invariant s) {w : Nat} {phase : Phase}
    (same : ∀ p ∈ phase.proposal?, p ∈ (s.phase w).proposal?)
    (no_more : ∀ id, phase.LocksProposal id → (s.phase w).LocksProposal id) :
    Invariant (s.setPhase w phase) :=
  inv.setPhase (fun p hp => inv.known w p (same p hp)) fun id h =>
    ⟨inv.locked w id (no_more id h), fun v other hv => other (inv.alone v w id hv (no_more id h))⟩

/-- Under the trigger, and unrepeated, only an open proposal is updated. -/
theorem open_of_passes (inv : Invariant s) {outcome : Outcome} {now : Timestamp}
    {current : AnchorProposal} (present : current ∈ s.proposals)
    (passes : ¬ current.Frozen outcome.target now)
    (unrepeated : ¬ (current.state = outcome.target ∧ current.resolvedAt = some now)) :
    current.state = .proposed := by
  cases state : current.state with
  | proposed => rfl
  | executed => exact absurd ⟨Or.inl state, unrepeated⟩ passes
  | rejected => exact absurd ⟨Or.inr state, unrepeated⟩ passes
  | expired => exact absurd state (inv.paired.not_expired current present)

/-! ## The commit of an outcome -/

/-- A proposal after the commit is the resolved one or an untouched other. -/
theorem mem_applyOutcome {proposal q : AnchorProposal} {outcome : Outcome} {now : Timestamp} :
    q ∈ (s.applyOutcome proposal outcome now).proposals ↔
      ∃ r ∈ s.proposals, (r.id = proposal.id ∧ q = r.resolve outcome.target now) ∨
        (r.id ≠ proposal.id ∧ q = r) := by
  refine (Table.mem_update (AnchorProposal.resolve_id outcome.target now)).trans ?_
  refine exists_congr fun r => and_congr_right fun _ => ?_
  simp only [decide_eq_true_eq]
  by_cases here : r.id = proposal.id
  · simp [here, eq_comm]
  · simp [here, eq_comm]

/-- The open proposal under a worker's lock, and its row. -/
theorem Invariant.held (inv : Invariant s) {w : Nat} {proposal : AnchorProposal}
    (works : proposal ∈ (s.phase w).proposal?) (locks : (s.phase w).LocksProposal proposal.id) :
    ∃ q ∈ s.proposals, q.id = proposal.id ∧ q.transactionId = proposal.transactionId ∧
      q.state = .proposed := by
  obtain ⟨q, hq, same, row⟩ := inv.known w proposal works
  exact ⟨q, hq, same, row, inv.locked w proposal.id locks q hq same⟩

theorem Invariant.applyOutcome (inv : Invariant s) {w : Nat} {proposal : AnchorProposal}
    {outcome : Outcome} {now : Timestamp}
    (updated : s.phase w = .rowUpdated proposal outcome now) :
    Invariant ((s.applyOutcome proposal outcome now).setPhase w .idle) := by
  have locks : (s.phase w).LocksProposal proposal.id := by rw [updated]; rfl
  have works : proposal ∈ (s.phase w).proposal? := by rw [updated]; rfl
  obtain ⟨held, hheld, sameId, sameRow, heldOpen⟩ := inv.held works locks
  -- Resolved proposals are not open, so an open one was not touched.
  have untouched : ∀ q ∈ (s.applyOutcome proposal outcome now).proposals,
      q.state = .proposed → q ∈ s.proposals ∧ q.id ≠ proposal.id := by
    intro q hq opened
    obtain ⟨r, hr, ⟨-, rfl⟩ | ⟨other, rfl⟩⟩ := mem_applyOutcome.mp hq
    · have resolved : outcome.target = .proposed := opened
      rcases target_resolved outcome with h | h <;> rw [h] at resolved <;> cases resolved
    · exact ⟨hr, other⟩
  have keeps : ∀ v ≠ w, ∀ id, (s.phase v).LocksProposal id → id ≠ proposal.id := by
    rintro v other id hv rfl
    exact other (inv.alone v w _ hv locks)
  refine ⟨⟨?_, ?_, ?_⟩, ?_, ?_, ?_⟩
  · intro p hp opened
    obtain ⟨before, other⟩ := untouched p hp opened
    obtain ⟨row, hrow, same, proposed⟩ := inv.paired.row p before opened
    refine ⟨row, (Store.KeepsOthers.updateRow _).kept row hrow fun here => other ?_, same,
      proposed⟩
    have shared : p.transactionId = held.transactionId := by rw [← same, here, sameRow]
    rw [inv.paired.unique p before held hheld opened heldOpen shared, sameId]
  · intro p hp q hq openP openQ
    exact inv.paired.unique p (untouched p hp openP).1 q (untouched q hq openQ).1 openP openQ
  · intro p hp expired
    obtain ⟨r, hr, ⟨-, rfl⟩ | ⟨-, rfl⟩⟩ := mem_applyOutcome.mp hp
    · have resolved : outcome.target = .expired := expired
      rcases target_resolved outcome with h | h <;> rw [h] at resolved <;> cases resolved
    · exact inv.paired.not_expired p hr expired
  · intro v p hp
    rw [setPhase_phase] at hp
    split at hp
    · cases hp
    · obtain ⟨q, hq, same, row⟩ := inv.known v p hp
      by_cases here : q.id = proposal.id
      · exact ⟨_, mem_applyOutcome.mpr ⟨q, hq, Or.inl ⟨here, rfl⟩⟩, same, row⟩
      · exact ⟨q, mem_applyOutcome.mpr ⟨q, hq, Or.inr ⟨here, rfl⟩⟩, same, row⟩
  · intro v id hv q hq atId
    rw [setPhase_phase] at hv
    split at hv
    · exact hv.elim
    next other =>
      obtain ⟨r, hr, ⟨here, rfl⟩ | ⟨-, rfl⟩⟩ := mem_applyOutcome.mp hq
      · exact absurd (atId.symm.trans here) (keeps v other id hv)
      · exact inv.locked v id hv q hr atId
  · intro v u id hv hu
    rw [setPhase_phase] at hv hu
    split at hv
    · exact hv.elim
    split at hu
    · exact hu.elim
    exact inv.alone v u id hv hu

/-! ## Uploading a proposal -/

theorem Invariant.propose (inv : Invariant s) {row : TransactionRow} {proposal : AnchorProposal}
    {now : Timestamp} (present : row ∈ s.store.transactions) (created : row.state = .created)
    (own : proposal.transactionId = row.id) (proposed : proposal.state = .proposed)
    (noneOpen : ∀ p ∈ s.proposals, p.transactionId = row.id → p.state ≠ .proposed) :
    Invariant
      { s with
        proposals := s.proposals.insertIfAbsent proposal
        store := s.store.updateRow row.id (setProposed now proposal.contractAddress) } := by
  have others := inv.paired.of_keepsOthers present (by rw [created]; nofun)
    (Store.KeepsOthers.updateRow (setProposed now proposal.contractAddress))
  refine ⟨⟨?_, ?_, ?_⟩, ?_, ?_, inv.alone⟩
  · intro p hp opened
    obtain old | ⟨rfl, -⟩ := Table.mem_insertIfAbsent.mp hp
    · exact others.row p old opened
    · refine ⟨_, (Table.mem_update (setProposed now _).id_apply).mpr ⟨row, present, rfl⟩, ?_, ?_⟩
      · rw [if_pos (decide_eq_true rfl)]
        exact own.symm
      · rw [if_pos (decide_eq_true rfl)]
        rfl
  · intro p hp q hq openP openQ same
    obtain oldP | ⟨rfl, -⟩ := Table.mem_insertIfAbsent.mp hp
    · obtain oldQ | ⟨rfl, -⟩ := Table.mem_insertIfAbsent.mp hq
      · exact inv.paired.unique p oldP q oldQ openP openQ same
      · exact absurd openP (noneOpen p oldP (same.trans own))
    · obtain oldQ | ⟨rfl, -⟩ := Table.mem_insertIfAbsent.mp hq
      · exact absurd openQ (noneOpen q oldQ (same.symm.trans own))
      · rfl
  · intro p hp
    obtain old | ⟨rfl, -⟩ := Table.mem_insertIfAbsent.mp hp
    · exact inv.paired.not_expired p old
    · rw [proposed]
      nofun
  · intro w p hp
    obtain ⟨q, hq, same, row⟩ := inv.known w p hp
    exact ⟨q, Table.mem_insertIfAbsent_of_mem hq, same, row⟩
  · intro w id hw q hq atId
    obtain old | ⟨rfl, -⟩ := Table.mem_insertIfAbsent.mp hq
    · exact inv.locked w id hw q old atId
    · exact proposed

/-! ## Every run -/

theorem not_proposed_of_claimable {state : TransactionState}
    (h : TransactionState.claimable state = true) : state ≠ .proposed := by
  rintro rfl
  cases h

theorem not_proposed_of_resubmittable {state : TransactionState}
    (h : TransactionState.resubmittable state = true) : state ≠ .proposed := by
  rintro rfl
  cases h

theorem Invariant.step (inv : Invariant s) {action : Action} (unrepeated : Unrepeated s action)
    (step : Step s action t) : Invariant t := by
  cases step with
  | select w proposal idle present proposed uploaded =>
    refine inv.setPhase ?_ nofun
    rintro p ⟨⟩
    exact ⟨proposal, present, rfl, rfl⟩
  | answer w outcome selected =>
    exact inv.advance (fun p hp => by rw [selected]; exact hp) nofun
  | begin w now answered =>
    exact inv.advance (fun p hp => by rw [answered]; exact hp) nofun
  | @updateProposal w _ proposal outcome now current begun free present same passes =>
    refine inv.setPhase (fun p hp => inv.known w p (by rw [begun]; exact hp)) ?_
    rintro id ⟨⟩
    refine ⟨fun q hq atId => ?_, fun v _ => free v⟩
    rw [Table.eq_of_key hq present (atId.trans same.symm)]
    exact open_of_passes inv present passes (unrepeated proposal outcome now begun current present same)
  | updateRow w updated =>
    exact inv.advance (fun p hp => by rw [updated]; exact hp) fun id h => by rw [updated]; exact h
  | commit w updated => exact inv.applyOutcome updated
  | abort w => exact inv.advance nofun nofun
  | submit row change present created =>
    exact inv.of_store present (by rw [created]; nofun) (.updateRow change)
  | propose row proposal now present created free own proposed fresh noneOpen =>
    exact inv.propose present created own proposed noneOpen
  | track config answers clock row present claimed =>
    exact inv.of_store present (not_proposed_of_claimable claimed)
      (trackPending_keepsOthers config answers clock s.store row)
  | resubmit row now present resubmittable =>
    exact inv.of_store present (not_proposed_of_resubmittable resubmittable) (.updateRow _)
  | move row change present movable =>
    exact inv.of_store present (not_proposed_of_resubmittable movable) (.updateRow change)

theorem Invariant.guarded (inv : Invariant s) : OutcomesGuarded s := by
  intro w t step row hrow gone
  cases step with
  | @commit _ _ proposal outcome now updated =>
    have locks : (s.phase w).LocksProposal proposal.id := by rw [updated]; rfl
    have works : proposal ∈ (s.phase w).proposal? := by rw [updated]; rfl
    have changed : row.id = proposal.transactionId := by
      by_contra other
      exact gone ((Store.KeepsOthers.updateRow _).kept row hrow other)
    obtain ⟨held, hheld, sameId, sameRow, heldOpen⟩ := inv.held works locks
    obtain ⟨r, hr, same, proposed⟩ := inv.paired.row held hheld heldOpen
    have here : r = row := Table.eq_of_key hr hrow (same.trans (sameRow.trans changed.symm))
    rw [← here]
    exact ⟨proposed, held, hheld, heldOpen, same.symm, proposal, works, sameId.symm⟩

/-- In every run in which no result is written a second time at the first one's
own time, a proposal's outcome changes only a row that is proposed for it. -/
theorem outcome_applied_once (s : State) (reached : (system.restrict Unrepeated).Reachable s) :
    OutcomesGuarded s := by
  have inv : Invariant s := by
    refine reached.invariant ?_ fun u action v inv step => inv.step step.1 step.2
    rintro s₀ ⟨paired, idle⟩
    refine ⟨paired, ?_, ?_, ?_⟩
    · intro w p hp
      rw [idle w] at hp
      cases hp
    · intro w id h
      rw [idle w] at h
      exact h.elim
    · intro w v id h
      rw [idle w] at h
      exact h.elim
  exact inv.guarded

/-! ## Two results at one time -/

def waitingRow : TransactionRow where
  id := 1
  tenantId := 1
  chainId := 31337
  batch := some ⟨0xba7c, 0x2007⟩
  state := .proposed
  txHash := none
  contractAddress := some 0xa11c
  blockNumber := none
  blockHash := none
  confirmations := 0
  confirmedAt := none
  reorgWatchUntil := none
  attempts := 0
  submittedAt := none
  lastError := none
  gasUsed := none
  effectiveGasPrice := none
  chainSearchFailedSince := none
  retryAfter := none
  updatedAt := 1

def openProposal : AnchorProposal := ⟨1, 1, 1, 31337, 0xa11c, some 0x5afe, .proposed, none⟩

/-- One row waiting for its Safe. -/
def start : State where
  store := ⟨⟨[waitingRow], List.nodup_singleton _⟩, ⟨Table.empty, Table.empty⟩, []⟩
  proposals := ⟨[openProposal], List.nodup_singleton _⟩
  history := Table.empty
  phase _ := .idle

theorem start_paired : Paired start.store start.proposals where
  row p hp _ := by
    rw [List.mem_singleton.mp hp]
    exact ⟨waitingRow, List.mem_singleton_self _, rfl, rfl⟩
  unique p hp q hq _ _ _ := (List.mem_singleton.mp hp).trans (List.mem_singleton.mp hq).symm
  not_expired p hp := by
    rw [List.mem_singleton.mp hp]
    nofun

theorem start_reachable (ok : State → Action → Prop) : (system.restrict ok).Reachable start :=
  .of_initial ⟨start_paired, fun _ => rfl⟩

/-- The execution as the node shows it, one block deep. -/
def executionAnswers : ChainAnswers where
  observe _ := .ok (.receipt ⟨.success, 100, 0xb10c, 150000, 1, 0, [⟨0xa11c, 0xba7c, 0x2007⟩]⟩, 100)
  anchoredBatch _ _ := .ok none
  finalizedBlockNumber _ := .ok 90

/-- The row once the execution was applied, and once it was seen in its block. -/
def submittedRow : TransactionRow := (setExecuted 50 0xe8ec 0xa11c).apply waitingRow

def includedRow : TransactionRow :=
  { submittedRow with
    state := .included, blockNumber := some 100, blockHash := some 0xb10c, confirmations := 1
    gasUsed := some 150000, effectiveGasPrice := some 1, updatedAt := 60 }

/-- With only workers 1 and 2 at work, a lock neither holds is free. -/
theorem proposalFree_of_two {id : Nat} (one : ¬ (s.phase 1).LocksProposal id)
    (two : ¬ (s.phase 2).LocksProposal id) (rest : ∀ w, w ≠ 1 → w ≠ 2 → s.phase w = .idle) :
    s.ProposalFree id := by
  intro w
  by_cases h₁ : w = 1
  · rw [h₁]; exact one
  by_cases h₂ : w = 2
  · rw [h₂]; exact two
  rw [rest w h₁ h₂]
  exact nofun

theorem rowFree_of_two {id : Nat} (one : ¬ (s.phase 1).LocksRow id)
    (two : ¬ (s.phase 2).LocksRow id) (rest : ∀ w, w ≠ 1 → w ≠ 2 → s.phase w = .idle) :
    s.RowFree id := by
  intro w
  by_cases h₁ : w = 1
  · rw [h₁]; exact one
  by_cases h₂ : w = 2
  · rw [h₂]; exact two
  rw [rest w h₁ h₂]
  exact nofun

/-- Two workers read the execution and begin in the same microsecond. The first
applies it and the row is tracked to its block; the second passes the trigger
and sets the included row back to submitted. -/
theorem outcome_applied_once_fails_same_time :
    ¬ ∀ s : State, system.Reachable s → OutcomesGuarded s := by
  intro claim
  have present : openProposal ∈ start.proposals := List.mem_singleton_self _
  have r₀ := (start_reachable fun _ _ => True).of_restrict
  have r₁ := r₀.step (.select 1 openProposal rfl present rfl nofun)
  have r₂ := r₁.step (.select 2 openProposal rfl present rfl nofun)
  have r₃ := r₂.step (.answer 1 (.executed 0xe8ec) rfl)
  have r₄ := r₃.step (.answer 2 (.executed 0xe8ec) rfl)
  have r₅ := r₄.step (.begin 1 50 rfl)
  have r₆ := r₅.step (.begin 2 50 rfl)
  have r₇ := r₆.step (.updateProposal 1 rfl
    (proposalFree_of_two id id fun w h₁ h₂ => by simp [State.setPhase, h₁, h₂, start])
    present rfl (by decide))
  have r₈ := r₇.step (.updateRow 1 rfl
    (rowFree_of_two id id fun w h₁ h₂ => by simp [State.setPhase, h₁, h₂, start])
    (List.mem_singleton_self waitingRow) rfl (by decide))
  have r₉ := r₈.step (.commit 1 rfl)
  have r₁₀ := r₉.step (.track (localConfig 60000000000000000) executionAnswers ⟨60, 0⟩ submittedRow
    (List.mem_singleton_self submittedRow) rfl
    (rowFree_of_two id id fun w h₁ h₂ => by
      simp [State.setPhase, State.applyOutcome, h₁, h₂, start]))
  have r₁₁ := r₁₀.step (.updateProposal 2 rfl
    (proposalFree_of_two id id fun w h₁ h₂ => by
      simp [State.setPhase, State.applyOutcome, h₁, h₂, start])
    (List.mem_singleton_self (openProposal.resolve .executed 50)) rfl (by decide))
  have r₁₂ := r₁₁.step (.updateRow 2 rfl
    (rowFree_of_two id id fun w h₁ h₂ => by
      simp [State.setPhase, State.applyOutcome, h₁, h₂, start])
    (List.mem_singleton_self includedRow) rfl (by decide))
  have guarded := claim _ r₁₂ 2 _ (.commit 2 rfl) includedRow (List.mem_singleton_self includedRow)
    (by decide)
  exact absurd guarded.1 (by decide)

theorem unrepeated_step {action : Action}
    (reached : (system.restrict Unrepeated).Reachable s) (step : Step s action t)
    (unrepeated : Unrepeated s action) : (system.restrict Unrepeated).Reachable t :=
  reached.step ⟨unrepeated, step⟩

/-- One worker applies the execution to the row it was proposed for. -/
theorem outcome_applied_once_single :
    ∃ s t, Step s (.commit 1) t ∧ submittedRow ∈ t.store.transactions ∧ OutcomesGuarded s := by
  have present : openProposal ∈ start.proposals := List.mem_singleton_self _
  have r₀ := start_reachable Unrepeated
  have r₁ := unrepeated_step r₀ (.select 1 openProposal rfl present rfl nofun) trivial
  have r₂ := unrepeated_step r₁ (.answer 1 (.executed 0xe8ec) rfl) trivial
  have r₃ := unrepeated_step r₂ (.begin 1 50 rfl) trivial
  have r₄ := unrepeated_step r₃ (.updateProposal 1 rfl
    (proposalFree_of_two id id fun w h₁ _ => by simp [State.setPhase, h₁, start])
    present rfl (by decide)) fun proposal outcome now _ current hcurrent _ => by
      rw [List.mem_singleton.mp hcurrent]
      exact fun same => by simp [openProposal] at same
  have r₅ := unrepeated_step r₄ (.updateRow 1 rfl
    (rowFree_of_two id id fun w h₁ _ => by simp [State.setPhase, h₁, start])
    (List.mem_singleton_self waitingRow) rfl (by decide)) trivial
  have guarded := outcome_applied_once _ r₅
  refine ⟨_, _, .commit 1 rfl, ?_, guarded⟩
  exact List.mem_singleton_self submittedRow

end MpcRegistry.Worker.SafeProposals
