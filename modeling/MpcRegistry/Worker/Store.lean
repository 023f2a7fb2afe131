import MpcRegistry.Worker.SendLedger

/-!
# The anchor worker's tables and configuration

Source: packages/db/migrations/0001, 0012, 0014, 0101, 0102, 0103 and 0135 (the
columns the worker's statements read or write) and SubmitterConfig, PendingRow
and StepResult of apps/anchor-worker/src/anchor-submitter.ts. A claimed row is
the table row itself: the claim locks it until its transaction ends.
-/
namespace MpcRegistry.Worker

open Library

structure AnchorBatch where
  batchId : Hash
  merkleRoot : Hash
  deriving DecidableEq, Repr

/-- A row of `chain.transactions`, joined with its batch. -/
structure TransactionRow where
  id : Nat
  tenantId : Nat
  chainId : Nat
  batch : Option AnchorBatch
  state : TransactionState
  txHash : Option Hash
  contractAddress : Option Address
  blockNumber : Option Nat
  blockHash : Option Hash
  confirmations : Nat
  confirmedAt : Option Timestamp
  reorgWatchUntil : Option Timestamp
  attempts : Nat
  submittedAt : Option Timestamp
  lastError : Option String
  gasUsed : Option Nat
  effectiveGasPrice : Option Nat
  chainSearchFailedSince : Option Timestamp
  retryAfter : Option Timestamp
  updatedAt : Timestamp
  deriving DecidableEq, Repr

/-- A row of `chain.reorg_events`. -/
structure ReorgEvent where
  tenantId : Nat
  transactionId : Nat
  previousBlockNumber : Nat
  previousBlockHash : Hash
  detectedState : TransactionState
  observedAt : Timestamp
  deriving DecidableEq, Repr

structure Store where
  transactions : Table TransactionRow.id
  ledger : SendLedger
  reorgEvents : List ReorgEvent

/-- A column update of one transaction row. The id is not among them. -/
structure RowChange where
  apply : TransactionRow → TransactionRow
  id_apply : ∀ row, (apply row).id = row.id

/-- `UPDATE chain.transactions SET … WHERE id = …`. -/
def Store.updateRow (store : Store) (id : Nat) (change : RowChange) : Store :=
  { store with
    transactions := store.transactions.update (·.id = id) change.apply change.id_apply }

@[simp] theorem Store.updateRow_reorgEvents (store : Store) (id : Nat) (change : RowChange) :
    (store.updateRow id change).reorgEvents = store.reorgEvents := rfl

@[simp] theorem Store.updateRow_ledger (store : Store) (id : Nat) (change : RowChange) :
    (store.updateRow id change).ledger = store.ledger := rfl

/-- Every row but that of `id` is kept. -/
structure Store.KeepsOthers (id : Nat) (store store' : Store) : Prop where
  kept : ∀ row ∈ store.transactions, row.id ≠ id → row ∈ store'.transactions

namespace Store.KeepsOthers

variable {id : Nat} {store store' store'' : Store}

theorem refl : KeepsOthers id store store := ⟨fun _ h _ => h⟩

theorem trans (first : KeepsOthers id store store') (second : KeepsOthers id store' store'') :
    KeepsOthers id store store'' :=
  ⟨fun row h other => second.kept row (first.kept row h other) other⟩

theorem updateRow (change : RowChange) : KeepsOthers id store (store.updateRow id change) := by
  refine ⟨fun row h other => ?_⟩
  refine (Table.mem_update change.id_apply).mpr ⟨row, h, ?_⟩
  rw [if_neg (by simpa using other)]

end Store.KeepsOthers

inductive FinalityTag where
  | safe | finalized | none
  deriving DecidableEq, Repr

structure SubmitterConfig where
  chainId : Nat
  contractAddress : Address
  confirmationDepth : Nat
  feeCapWei : Nat
  maxAttempts : Nat
  dropTimeoutMs : Nat
  dailySpendCapWei : Nat
  gasLimit : Nat
  eoaAllowedChainIds : List Nat
  safeAddress : Option Address
  reorgWatchMs : Nat
  recheckIntervalMs : Nat
  finalityTag : FinalityTag
  chainSearchRetryMs : Nat
  chainSearchGiveUpMs : Nat
  /-- Masks the configured endpoints out of an error's text. -/
  redact : String → String

/-- Default settings on the local chain: gas limit 200,000, three attempts, a fee
cap of 100 gwei and no L1 fee. -/
def localConfig (dailySpendCapWei : Nat) : SubmitterConfig where
  chainId := 31337
  contractAddress := 0xa11c
  confirmationDepth := 12
  feeCapWei := 100000000000
  maxAttempts := 3
  dropTimeoutMs := 600000
  dailySpendCapWei := dailySpendCapWei
  gasLimit := 200000
  eoaAllowedChainIds := [31337]
  safeAddress := none
  reorgWatchMs := 86400000
  recheckIntervalMs := 60000
  finalityTag := .none
  chainSearchRetryMs := 60000
  chainSearchGiveUpMs := 3600000
  redact := id

def utf16Size (c : Char) : Nat := if c.toNat < 0x10000 then 1 else 2

/-- The first `n` UTF-16 code units; a character cut in half is stored as U+FFFD. -/
def cutUnits : Nat → List Char → List Char
  | 0, _ => []
  | _ + 1, [] => []
  | n + 1, c :: rest =>
    if utf16Size c ≤ n + 1 then c :: cutUnits (n + 1 - utf16Size c) rest else ['\uFFFD']

/-- Masked first, then cut at 500 characters. -/
def errorText (config : SubmitterConfig) (label : Option String) (error : String) : String :=
  let text := config.redact error
  let labelled := match label with
    | some l => l ++ ": " ++ text
    | none => text
  String.ofList (cutUnits 500 labelled.toList)

structure StepResult where
  handled : Bool
  transactionId : Option Nat
  fromState : Option TransactionState
  toState : Option TransactionState
  reason : Option String
  waiting : Bool
  deriving DecidableEq, Repr

/-- A step that leaves the row's state and waits. -/
def StepResult.wait (row : TransactionRow) (reason : String) : StepResult where
  handled := true
  transactionId := some row.id
  fromState := some row.state
  toState := some row.state
  reason := some reason
  waiting := true

/-- A step that moved the row. -/
def StepResult.move (row : TransactionRow) (to' : TransactionState) (reason : Option String) :
    StepResult where
  handled := true
  transactionId := some row.id
  fromState := some row.state
  toState := some to'
  reason := reason
  waiting := false

/-- The database's `now()` of the step's transaction, and the process clock in
milliseconds. -/
structure Clock where
  now : Timestamp
  nowMs : Int
  deriving DecidableEq, Repr

def micros (ms : Nat) : Nat := ms * 1000

end MpcRegistry.Worker
