import MpcRegistry.Library.Table
import MpcRegistry.Worker.AnchorState

/-!
# The send ledger and the gas ledger

Source: apps/anchor-worker/src/anchor-submitter.ts:640-702 (spentTodayWei,
inFlightSends), :803-819 (retry reservation), :909-931 (recordSend), :1060-1110
(settleSend's statements, settle), :1468-1481 (trackPending's statements), with
the tables of packages/db/migrations/0041, 0079 and 0100. Times are
microseconds since the epoch, as PostgreSQL keeps them; each statement takes the
`now()` of its transaction.
-/
namespace MpcRegistry.Worker

open Library

abbrev Timestamp := Nat

inductive SettledReason where
  | receipt | nonceConsumed | operator
  deriving DecidableEq, Repr

/-- `settled_at` with `settled_reason`: the table holds both or neither. -/
structure Settlement where
  settledAt : Timestamp
  reason : SettledReason
  deriving DecidableEq, Repr

/-- A row of `chain.anchor_sends`. Rows carried over from before the ledger
have no signer, nonce, gas limit or fee. -/
structure AnchorSend where
  chainId : Nat
  txHash : Hash
  transactionId : Nat
  tenantId : Nat
  signer : Option Address
  nonce : Option Nat
  gasLimit : Option Nat
  maxFeePerGas : Option Nat
  l1FeeBound : Nat
  sentAt : Timestamp
  checkedAt : Option Timestamp
  settlement : Option Settlement
  deriving DecidableEq, Repr

/-- A row of `chain.gas_spend`: one mined transaction hash. -/
structure GasSpend where
  chainId : Nat
  txHash : Hash
  transactionId : Nat
  tenantId : Nat
  gasUsed : Nat
  effectiveGasPrice : Nat
  l1Fee : Nat
  observedAt : Timestamp
  deriving DecidableEq, Repr

def AnchorSend.key (s : AnchorSend) : Nat × Hash := (s.chainId, s.txHash)

def GasSpend.key (g : GasSpend) : Nat × Hash := (g.chainId, g.txHash)

def AnchorSend.settled (s : AnchorSend) (now : Timestamp) (reason : SettledReason) : AnchorSend :=
  { s with settlement := some ⟨now, reason⟩, checkedAt := some now }

def AnchorSend.checked (s : AnchorSend) (now : Timestamp) : AnchorSend :=
  { s with checkedAt := some now }

theorem AnchorSend.settled_key (now : Timestamp) (reason : SettledReason) (s : AnchorSend) :
    (s.settled now reason).key = s.key := rfl

theorem AnchorSend.checked_key (now : Timestamp) (s : AnchorSend) :
    (s.checked now).key = s.key := rfl

structure SendLedger where
  sends : Table AnchorSend.key
  spend : Table GasSpend.key

/-- Midnight UTC of the day of `now`. -/
def dayStart (now : Timestamp) : Timestamp := now / 86400000000 * 86400000000

def GasSpend.cost (g : GasSpend) : Nat := g.gasUsed * g.effectiveGasPrice + g.l1Fee

/-- The most a send with a recorded gas limit can burn, and its reserved L1 fee. -/
def AnchorSend.reserved (s : AnchorSend) (feeCapWei : Nat) : Nat :=
  s.gasLimit.getD 0 * s.maxFeePerGas.getD feeCapWei + s.l1FeeBound

structure InFlightSends where
  boundedWei : Nat
  unbounded : Nat
  deriving DecidableEq, Repr

namespace SendLedger

variable (ledger : SendLedger)

def SpentToday (chainId : Nat) (now : Timestamp) (g : GasSpend) : Prop :=
  g.chainId = chainId ∧ dayStart now ≤ g.observedAt

instance (chainId now) : DecidablePred (SpentToday chainId now) :=
  fun g => inferInstanceAs (Decidable (g.chainId = chainId ∧ dayStart now ≤ g.observedAt))

def spentTodayWei (chainId : Nat) (now : Timestamp) : Nat :=
  ledger.spend.sum (fun g => SpentToday chainId now g) GasSpend.cost

/-- Unsettled, and without a row in the gas ledger. -/
def InFlight (chainId : Nat) (s : AnchorSend) : Prop :=
  s.chainId = chainId ∧ s.settlement = none ∧ ∀ g ∈ ledger.spend.rows, g.key ≠ s.key

instance (chainId) : DecidablePred (ledger.InFlight chainId) :=
  fun s => inferInstanceAs (Decidable (s.chainId = chainId ∧ s.settlement = none ∧
    ∀ g ∈ ledger.spend.rows, g.key ≠ s.key))

def inFlightSends (chainId feeCapWei : Nat) : InFlightSends where
  boundedWei := ledger.sends.sum
    (fun s => ledger.InFlight chainId s ∧ s.gasLimit ≠ none) (·.reserved feeCapWei)
  unbounded := ledger.sends.sum (fun s => ledger.InFlight chainId s ∧ s.gasLimit = none) fun _ => 1

/-- The largest open reservation of one row at one signer and nonce. -/
def retryReservation (chainId transactionId : Nat) (signer : Address) (nonce feeCapWei : Nat) :
    Nat :=
  ((ledger.sends.rows.filter fun s => ledger.InFlight chainId s ∧
      s.transactionId = transactionId ∧ s.signer = some signer ∧ s.nonce = some nonce ∧
      s.gasLimit ≠ none).map (·.reserved feeCapWei)).foldl max 0

/-- Re-signing identical input gives the identical hash: one row. -/
def recordSend (send : AnchorSend) : SendLedger :=
  { ledger with sends := ledger.sends.insertIfAbsent send }

def settle (now : Timestamp) (chainId : Nat) (txHash : Hash) (reason : SettledReason) :
    SendLedger :=
  { ledger with
    sends := ledger.sends.update
      (fun s => s.chainId = chainId ∧ s.txHash = txHash ∧ s.settlement = none)
      (·.settled now reason) (AnchorSend.settled_key now reason) }

def stampChecked (now : Timestamp) (chainId : Nat) (txHash : Hash) : SendLedger :=
  { ledger with
    sends := ledger.sends.update (fun s => s.chainId = chainId ∧ s.txHash = txHash)
      (·.checked now) (AnchorSend.checked_key now) }

/-- The two statements every reader of a receipt runs in one transaction: the
cost enters the gas ledger once, and the send settles. -/
def recordReceipt (now : Timestamp) (chainId : Nat) (txHash : Hash) (transactionId tenantId : Nat)
    (receipt : Receipt) : SendLedger :=
  let cost : GasSpend :=
    { chainId, txHash, transactionId, tenantId
      gasUsed := receipt.gasUsed
      effectiveGasPrice := receipt.effectiveGasPrice
      l1Fee := receipt.l1Fee
      observedAt := now }
  { ledger with spend := ledger.spend.insertIfAbsent cost }.settle now chainId txHash .receipt

variable {ledger}

@[simp] theorem recordSend_spend (send : AnchorSend) :
    (ledger.recordSend send).spend = ledger.spend := rfl

@[simp] theorem settle_spend (now chainId txHash reason) :
    (ledger.settle now chainId txHash reason).spend = ledger.spend := rfl

@[simp] theorem stampChecked_spend (now chainId txHash) :
    (ledger.stampChecked now chainId txHash).spend = ledger.spend := rfl

/-- What one settlement does to the rows: the named open send gets its
settlement, every other row stays. -/
theorem mem_settle {now : Timestamp} {chainId : Nat} {txHash : Hash} {reason : SettledReason}
    {s : AnchorSend} :
    s ∈ (ledger.settle now chainId txHash reason).sends ↔
      ∃ r ∈ ledger.sends,
        (r.key = (chainId, txHash) ∧ r.settlement = none ∧ s = r.settled now reason) ∨
        ((r.key = (chainId, txHash) → r.settlement ≠ none) ∧ s = r) := by
  refine (Table.mem_update (AnchorSend.settled_key now reason)).trans ?_
  refine exists_congr fun r => and_congr_right fun _ => ?_
  simp only [decide_eq_true_eq, AnchorSend.key, Prod.mk.injEq]
  by_cases here : r.chainId = chainId ∧ r.txHash = txHash
  · by_cases opened : r.settlement = none
    · simp only [here.1, here.2, opened, and_self, if_true, true_and, ne_eq, not_true_eq_false,
        forall_const, false_and, or_false]
      exact eq_comm
    · simp only [here.1, here.2, opened, and_false, if_false, false_and, ne_eq,
        not_false_eq_true, implies_true, true_and, false_or]
      exact eq_comm
  · simp only [← and_assoc, here, false_and, if_false, ne_eq, false_or, false_implies, true_and]
    exact eq_comm

/-- What a check stamp does to the rows: nothing but `checkedAt`. -/
theorem mem_stampChecked {now : Timestamp} {chainId : Nat} {txHash : Hash} {s : AnchorSend}
    (h : s ∈ (ledger.stampChecked now chainId txHash).sends) :
    ∃ r ∈ ledger.sends, s = r ∨ s = r.checked now := by
  obtain ⟨r, hr, -, rfl | ⟨-, rfl⟩⟩ :=
    Table.exists_of_mem_update (AnchorSend.checked_key now) h
  · exact ⟨s, hr, Or.inl rfl⟩
  · exact ⟨r, hr, Or.inr rfl⟩

/-! ### Recording a send -/

theorem recordSend_of_taken {send : AnchorSend} (taken : ∃ s ∈ ledger.sends, s.key = send.key) :
    ledger.recordSend send = ledger := by
  unfold recordSend
  rw [Table.insertIfAbsent_of_taken taken]

theorem unbounded_recordSend {send : AnchorSend} {chainId : Nat} (feeCapWei : Nat)
    (fresh : ∀ s ∈ ledger.sends, s.key ≠ send.key) (limited : send.gasLimit ≠ none) :
    ((ledger.recordSend send).inFlightSends chainId feeCapWei).unbounded =
      (ledger.inFlightSends chainId feeCapWei).unbounded := by
  change Table.sum _ (fun s => ledger.InFlight chainId s ∧ s.gasLimit = none) _ = _
  unfold Table.sum recordSend
  rw [Table.rows_insertIfAbsent_of_fresh fresh, List.filter_append]
  simp [limited, inFlightSends, Table.sum]

section Fresh

variable {send : AnchorSend} {chainId : Nat} (feeCapWei : Nat)
  (fresh : ∀ s ∈ ledger.sends, s.key ≠ send.key) (opened : ledger.InFlight chainId send)
  (limited : send.gasLimit ≠ none)
include fresh opened limited

theorem boundedWei_recordSend :
    ((ledger.recordSend send).inFlightSends chainId feeCapWei).boundedWei =
      (ledger.inFlightSends chainId feeCapWei).boundedWei + send.reserved feeCapWei :=
  Table.sum_insertIfAbsent
    (fun s => ledger.InFlight chainId s ∧ s.gasLimit ≠ none)
    (·.reserved feeCapWei) fresh (decide_eq_true ⟨opened, limited⟩)

/-- The retry slot of the row, signer and nonce the send carries. -/
theorem retryReservation_recordSend {signer : Address} {nonce : Nat}
    (bySigner : send.signer = some signer) (atNonce : send.nonce = some nonce) :
    (ledger.recordSend send).retryReservation chainId send.transactionId signer nonce feeCapWei =
      max (ledger.retryReservation chainId send.transactionId signer nonce feeCapWei)
        (send.reserved feeCapWei) := by
  have chosen : [send].filter (fun s => ledger.InFlight chainId s ∧
      s.transactionId = send.transactionId ∧ s.signer = some signer ∧ s.nonce = some nonce ∧
      s.gasLimit ≠ none) = [send] := by
    simp [opened, bySigner, atNonce, limited]
  change List.foldl max 0 (List.map _ (List.filter (fun s => ledger.InFlight chainId s ∧
    s.transactionId = send.transactionId ∧ s.signer = some signer ∧ s.nonce = some nonce ∧
    s.gasLimit ≠ none) _)) = _
  unfold recordSend
  rw [Table.rows_insertIfAbsent_of_fresh fresh, List.filter_append, chosen, List.map_append,
    List.foldl_append]
  rfl

end Fresh

/-- A ledger with nothing in flight reserves nothing. -/
theorem inFlight_none {chainId : Nat} (feeCapWei : Nat)
    (idle : ∀ s ∈ ledger.sends, ¬ ledger.InFlight chainId s) :
    ledger.inFlightSends chainId feeCapWei = ⟨0, 0⟩ := by
  unfold inFlightSends
  rw [Table.sum_eq_zero _ fun s hs => decide_eq_false fun h => idle s hs h.1,
    Table.sum_eq_zero _ fun s hs => decide_eq_false fun h => idle s hs h.1]

theorem retryReservation_none {chainId : Nat}
    (idle : ∀ s ∈ ledger.sends, ¬ ledger.InFlight chainId s)
    (transactionId signer nonce feeCapWei : Nat) :
    ledger.retryReservation chainId transactionId signer nonce feeCapWei = 0 := by
  unfold retryReservation
  rw [List.filter_eq_nil_iff.mpr fun s hs h => idle s hs (of_decide_eq_true h).1]
  rfl

/-- Later on the same ledger, the day's spend is no larger. -/
theorem spentTodayWei_anti (ledger : SendLedger) (chainId : Nat) {now later : Timestamp} (h : now ≤ later) :
    ledger.spentTodayWei chainId later ≤ ledger.spentTodayWei chainId now := by
  refine Table.sum_le_sum_of_imp _ _ fun g today => ?_
  have start : dayStart now ≤ dayStart later :=
    Nat.mul_le_mul_right _ (Nat.div_le_div_right h)
  obtain ⟨onChain, since⟩ := of_decide_eq_true today
  exact decide_eq_true ⟨onChain, start.trans since⟩

/-! ### What the sums cover -/

/-- A send counted in flight with a gas limit is covered by the bounded sum. -/
theorem reserved_le_boundedWei {chainId : Nat} {s : AnchorSend} (feeCapWei : Nat)
    (h : s ∈ ledger.sends) (open_ : ledger.InFlight chainId s) (bounded : s.gasLimit ≠ none) :
    s.reserved feeCapWei ≤ (ledger.inFlightSends chainId feeCapWei).boundedWei :=
  Table.le_sum (fun s => ledger.InFlight chainId s ∧ s.gasLimit ≠ none)
    (·.reserved feeCapWei) h (by simp [open_, bounded])

/-- One without a gas limit is covered by the unbounded count. -/
theorem unbounded_pos {chainId : Nat} {s : AnchorSend} (feeCapWei : Nat)
    (h : s ∈ ledger.sends) (open_ : ledger.InFlight chainId s) (unbounded : s.gasLimit = none) :
    1 ≤ (ledger.inFlightSends chainId feeCapWei).unbounded :=
  Table.le_sum (fun s => ledger.InFlight chainId s ∧ s.gasLimit = none) (fun _ => 1) h (by simp [open_, unbounded])

/-- A cost recorded today is covered by today's spend. -/
theorem cost_le_spentTodayWei {chainId : Nat} {now : Timestamp} {g : GasSpend}
    (h : g ∈ ledger.spend) (today : SpentToday chainId now g) :
    g.cost ≤ ledger.spentTodayWei chainId now :=
  Table.le_sum (fun g => SpentToday chainId now g) GasSpend.cost h (by simp [today])

end SendLedger

end MpcRegistry.Worker
