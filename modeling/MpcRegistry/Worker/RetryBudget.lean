import MpcRegistry.Library.Transition
import MpcRegistry.Worker.SubmitPending

/-!
# Retries of a failed first broadcast

Source: apps/anchor-worker/src/anchor-submitter.ts:755-873 (submitPending's
budget and guard calls), apps/anchor-worker/src/anchor-state.ts:291-356
(checkSubmitAllowed) and apps/anchor-worker/src/anchor-config.ts:177-187 (the
smallest accepted daily cap). A broadcast that fails leaves its reservation
open, and every differently priced retry at the same nonce adds one of its own.
-/
namespace MpcRegistry.Worker

open Library

/-- One attempt's quote, the L1 fee bound priced for it, and its time. -/
structure Attempt where
  quote : FeeQuote
  l1FeeBound : Nat
  now : Timestamp
  deriving DecidableEq, Repr

/-- The row being sent, its signer and the nonce its attempts share. `signed` is
the hash of the transaction signed with a quote: calldata, gas limit and nonce
are the row's, so different quotes sign different transactions. -/
structure RetryRow where
  config : SubmitterConfig
  transactionId : Nat
  tenantId : Nat
  signer : Address
  nonce : Nat
  blockGasLimit : Nat
  signed : FeeQuote → Hash
  signed_injective : Function.Injective signed

structure RetryState where
  attempts : Nat
  ledger : SendLedger

namespace RetryRow

variable (row : RetryRow)

def prepare (quote : FeeQuote) : PreparedSend where
  txHash := row.signed quote
  signer := row.signer
  nonce := row.nonce
  gasLimit := row.config.gasLimit
  maxFeePerGas := feeCeilingOf quote

def record (attempt : Attempt) : AnchorSend :=
  sendRecord row.config row.transactionId row.tenantId (row.prepare attempt.quote)
    attempt.l1FeeBound attempt.now

def inFlight (ledger : SendLedger) : InFlightSends :=
  ledger.inFlightSends row.config.chainId row.config.feeCapWei

def retrySlot (ledger : SendLedger) : Nat :=
  ledger.retryReservation row.config.chainId row.transactionId row.signer row.nonce
    row.config.feeCapWei

/-- Both guards of one attempt, on what the ledger holds. The retry slot is read
only where an L1 fee is charged. -/
def Allowed (s : RetryState) (attempt : Attempt) : Prop :=
  sendAllowed row.config s.attempts (s.ledger.spentTodayWei row.config.chainId attempt.now)
    (inFlightMaxWei (row.inFlight s.ledger) row.blockGasLimit row.config.feeCapWei) attempt.quote
    attempt.l1FeeBound (if 0 < attempt.l1FeeBound then row.retrySlot s.ledger else 0)

instance (s attempt) : Decidable (row.Allowed s attempt) :=
  inferInstanceAs (Decidable (sendAllowed ..))

/-- The attempt is counted and recorded, and nothing reaches the network. -/
def failedBroadcast (s : RetryState) (attempt : Attempt) : RetryState where
  attempts := s.attempts + 1
  ledger := s.ledger.recordSend (row.record attempt)

end RetryRow

/-- A first send that was admitted on a chain with nothing else in flight, under
a daily cap `loadAnchorConfig` accepts. Its nonce is unconsumed: no ledger knows
a transaction signed for it. -/
structure FailedFirstSend where
  row : RetryRow
  start : RetryState
  first : Attempt
  cap_fits_two : 2 * row.config.gasLimit * row.config.feeCapWei ≤ row.config.dailySpendCapWei
  maxAttempts_pos : 1 ≤ row.config.maxAttempts
  idle : ∀ s ∈ start.ledger.sends, ¬ start.ledger.InFlight row.config.chainId s
  unsent : ∀ s ∈ start.ledger.sends, ∀ quote, s.key ≠ (row.config.chainId, row.signed quote)
  unmined : ∀ g ∈ start.ledger.spend, ∀ quote, g.key ≠ (row.config.chainId, row.signed quote)
  admitted : row.Allowed start first

namespace FailedFirstSend

variable (c : FailedFirstSend)

/-- A later attempt: any quote under the fee cap, an L1 fee bound no larger than
the first. -/
def Within (attempt : Attempt) : Prop :=
  feeCeilingOf attempt.quote ≤ c.row.config.feeCapWei ∧
    attempt.l1FeeBound ≤ c.first.l1FeeBound ∧ c.first.now ≤ attempt.now

/-- The row after its first broadcast failed, and every later attempt that is
admitted and fails in its turn. -/
def retries : System RetryState Attempt where
  initial s := s = c.row.failedBroadcast c.start c.first
  step s attempt t :=
    c.Within attempt ∧ c.row.Allowed s attempt ∧ t = c.row.failedBroadcast s attempt

/-- Whatever attempts failed before, the next one is admitted while the row has
attempts left. -/
def NeverWedged : Prop :=
  ∀ s, c.retries.Reachable s → ∀ next, c.Within next →
    s.attempts < c.row.config.maxAttempts → c.row.Allowed s next

/-- What the first attempt reserves. -/
def firstReserve : Nat :=
  c.row.config.gasLimit * feeCeilingOf c.first.quote + c.first.l1FeeBound

/-- The most any later attempt reserves. -/
def fullReserve : Nat := c.row.config.gasLimit * c.row.config.feeCapWei + c.first.l1FeeBound

def spent : Nat := c.start.ledger.spentTodayWei c.row.config.chainId c.first.now

/-- The daily cap holds the first reservation and a full one for every attempt
the row has left after it. -/
def RoomForAll : Prop :=
  c.row.config.maxAttempts ≤ c.start.attempts + 1 ∨
    c.spent + c.firstReserve +
      (c.row.config.maxAttempts - (c.start.attempts + 1)) * c.fullReserve ≤
        c.row.config.dailySpendCapWei

instance : Decidable c.RoomForAll := inferInstanceAs (Decidable (_ ∨ _))

/-- No spend has been recorded since the start, and every send in flight has a
gas limit. -/
structure Ledgered (s : RetryState) : Prop where
  spend : s.ledger.spend = c.start.ledger.spend
  bounded : (c.row.inFlight s.ledger).unbounded = 0

/-- After the first send and `k` retries. Beside the whole in-flight sum, the
part of it outside the retry slot is bounded: the slot holds the largest
reservation, so the rest is at most the first one and `k - 1` full ones. -/
structure Retried (k : Nat) (s : RetryState) : Prop extends c.Ledgered s where
  attempts : s.attempts = c.start.attempts + 1 + k
  total : (c.row.inFlight s.ledger).boundedWei ≤ c.firstReserve + k * c.fullReserve
  slot : c.row.retrySlot s.ledger ≤ c.fullReserve
  alone : k = 0 → c.row.retrySlot s.ledger = c.firstReserve
  rest : ∀ j, k = j + 1 → (c.row.inFlight s.ledger).boundedWei ≤
    c.row.retrySlot s.ledger + c.firstReserve + j * c.fullReserve

variable {c} {s : RetryState} {attempt : Attempt}

/-! ## One more failed broadcast -/

theorem record_inFlight (ledgered : c.Ledgered s) (attempt : Attempt) :
    s.ledger.InFlight c.row.config.chainId (c.row.record attempt) := by
  refine ⟨rfl, rfl, fun g hg => c.unmined g ?_ attempt.quote⟩
  rw [ledgered.spend] at hg
  exact hg

/-- Signing the same transaction again records nothing. -/
theorem failedBroadcast_resigned
    (taken : ∃ r ∈ s.ledger.sends, r.key = (c.row.record attempt).key) :
    (c.row.failedBroadcast s attempt).ledger = s.ledger :=
  SendLedger.recordSend_of_taken taken

/-- A new one adds its reservation to the in-flight sum and enters the slot. -/
theorem failedBroadcast_repriced (ledgered : c.Ledgered s)
    (fresh : ∀ r ∈ s.ledger.sends, r.key ≠ (c.row.record attempt).key) :
    (c.row.inFlight (c.row.failedBroadcast s attempt).ledger).boundedWei =
        (c.row.inFlight s.ledger).boundedWei +
          (c.row.config.gasLimit * feeCeilingOf attempt.quote + attempt.l1FeeBound) ∧
      c.row.retrySlot (c.row.failedBroadcast s attempt).ledger =
        max (c.row.retrySlot s.ledger)
          (c.row.config.gasLimit * feeCeilingOf attempt.quote + attempt.l1FeeBound) := by
  have opened := record_inFlight ledgered attempt
  have limited : (c.row.record attempt).gasLimit ≠ none := nofun
  exact ⟨SendLedger.boundedWei_recordSend _ fresh opened limited,
    SendLedger.retryReservation_recordSend _ fresh opened limited rfl rfl⟩

theorem ledgered_failedBroadcast (ledgered : c.Ledgered s) (attempt : Attempt) :
    c.Ledgered (c.row.failedBroadcast s attempt) := by
  refine ⟨ledgered.spend, ?_⟩
  by_cases taken : ∃ r ∈ s.ledger.sends, r.key = (c.row.record attempt).key
  · rw [failedBroadcast_resigned taken, ledgered.bounded]
  · have fresh : ∀ r ∈ s.ledger.sends, r.key ≠ (c.row.record attempt).key := fun r hr h =>
      taken ⟨r, hr, h⟩
    exact (SendLedger.unbounded_recordSend _ fresh nofun).trans ledgered.bounded

/-! ## What the reservations can add up to -/

theorem first_within : c.Within c.first :=
  ⟨((checkSubmitAllowed_eoa _ _).mp c.admitted.1).2.2.1, le_rfl, le_rfl⟩

theorem reserve_le (within : c.Within attempt) :
    c.row.config.gasLimit * feeCeilingOf attempt.quote + attempt.l1FeeBound ≤ c.fullReserve :=
  Nat.add_le_add (Nat.mul_le_mul_left _ within.1) within.2.1

theorem start_ledgered : c.Ledgered c.start where
  spend := rfl
  bounded := by
    unfold RetryRow.inFlight
    rw [SendLedger.inFlight_none _ c.idle]

theorem start_boundedWei : (c.row.inFlight c.start.ledger).boundedWei = 0 := by
  unfold RetryRow.inFlight
  rw [SendLedger.inFlight_none _ c.idle]

theorem start_retrySlot : c.row.retrySlot c.start.ledger = 0 :=
  SendLedger.retryReservation_none c.idle _ _ _ _

/-- The first failed broadcast leaves exactly its own reservation. -/
theorem after_first :
    (c.row.inFlight (c.row.failedBroadcast c.start c.first).ledger).boundedWei = c.firstReserve ∧
      c.row.retrySlot (c.row.failedBroadcast c.start c.first).ledger = c.firstReserve := by
  have fresh : ∀ r ∈ c.start.ledger.sends, r.key ≠ (c.row.record c.first).key := fun r hr =>
    c.unsent r hr c.first.quote
  have sums := failedBroadcast_repriced start_ledgered fresh
  rw [start_boundedWei, start_retrySlot] at sums
  exact ⟨sums.1.trans (Nat.zero_add _), sums.2.trans (Nat.zero_max _)⟩

theorem retried_zero : c.Retried 0 (c.row.failedBroadcast c.start c.first) where
  toLedgered := ledgered_failedBroadcast start_ledgered c.first
  attempts := rfl
  total := by rw [after_first.1]; exact Nat.le_add_right _ _
  slot := by rw [after_first.2]; exact reserve_le first_within
  alone _ := after_first.2
  rest _ h := by cases h

/-- One more retry keeps the bounds, whether it is priced anew or signed again. -/
theorem retried_succ {k : Nat} (retried : c.Retried k s) (within : c.Within attempt) :
    c.Retried (k + 1) (c.row.failedBroadcast s attempt) := by
  have ledgered := ledgered_failedBroadcast retried.toLedgered attempt
  have counted : (c.row.failedBroadcast s attempt).attempts = c.start.attempts + 1 + (k + 1) :=
    congrArg (· + 1) retried.attempts
  have reserve := reserve_le within
  have total := retried.total
  have slot := retried.slot
  have growth : (k + 1) * c.fullReserve = k * c.fullReserve + c.fullReserve :=
    Nat.succ_mul k c.fullReserve
  by_cases taken : ∃ r ∈ s.ledger.sends, r.key = (c.row.record attempt).key
  · have same := failedBroadcast_resigned taken
    refine ⟨ledgered, counted, ?_, ?_, nofun, ?_⟩
    · rw [same]; omega
    · rw [same]; exact slot
    · rintro j h
      cases h
      rw [same]
      omega
  · have fresh : ∀ r ∈ s.ledger.sends, r.key ≠ (c.row.record attempt).key := fun r hr h =>
      taken ⟨r, hr, h⟩
    obtain ⟨totalAfter, slotAfter⟩ := failedBroadcast_repriced retried.toLedgered fresh
    refine ⟨ledgered, counted, ?_, ?_, nofun, ?_⟩
    · rw [totalAfter]; omega
    · rw [slotAfter]; omega
    · rintro j h
      cases h
      rw [totalAfter, slotAfter]
      -- What leaves the slot, or never enters it, joins the rest.
      cases k with
      | zero =>
        have alone := retried.alone rfl
        omega
      | succ j =>
        have rest := retried.rest j rfl
        have : (j + 1) * c.fullReserve = j * c.fullReserve + c.fullReserve :=
          Nat.succ_mul j c.fullReserve
        omega

theorem reachable_retried (reached : c.retries.Reachable s) : ∃ k, c.Retried k s := by
  refine reached.invariant (I := fun s => ∃ k, c.Retried k s) ?_ ?_
  · rintro s₀ rfl
    exact ⟨0, retried_zero⟩
  · rintro s attempt t ⟨k, retried⟩ ⟨within, -, rfl⟩
    exact ⟨k + 1, retried_succ retried within⟩

/-! ## Room for every attempt is enough -/

theorem spent_le (ledgered : c.Ledgered s) (within : c.Within attempt) :
    s.ledger.spentTodayWei c.row.config.chainId attempt.now ≤ c.spent := by
  have later := SendLedger.spentTodayWei_anti c.start.ledger c.row.config.chainId
    within.2.2
  unfold SendLedger.spentTodayWei at later ⊢
  rw [ledgered.spend]
  exact later

theorem inFlightMaxWei_eq (ledgered : c.Ledgered s) :
    inFlightMaxWei (c.row.inFlight s.ledger) c.row.blockGasLimit c.row.config.feeCapWei =
      (c.row.inFlight s.ledger).boundedWei := by
  unfold inFlightMaxWei
  rw [ledgered.bounded]
  simp

/-- The first send was admitted with room for one full retry, where an L1 fee is
charged. -/
theorem first_room (charged : 0 < c.first.l1FeeBound) :
    c.spent + 2 * c.fullReserve ≤ c.row.config.dailySpendCapWei := by
  have room := ((sendAllowed_iff first_within.1).mp c.admitted).2.2.2 charged
  rw [if_pos charged, start_retrySlot, inFlightMaxWei_eq start_ledgered, start_boundedWei] at room
  unfold spent fullReserve
  omega

theorem allowed_of_room (room : c.RoomForAll) {k : Nat} (retried : c.Retried k s)
    (within : c.Within attempt) (left : s.attempts < c.row.config.maxAttempts) :
    c.row.Allowed s attempt := by
  have attempts := retried.attempts
  have budget : c.spent + c.firstReserve + (k + 1) * c.fullReserve ≤
      c.row.config.dailySpendCapWei := by
    rcases room with used | room
    · omega
    · refine le_trans (Nat.add_le_add_left (Nat.mul_le_mul_right _ ?_) _) room
      omega
  have growth : (k + 1) * c.fullReserve = k * c.fullReserve + c.fullReserve :=
    Nat.succ_mul k c.fullReserve
  have spent := spent_le retried.toLedgered within
  have reserve := reserve_le within
  have total := retried.total
  have candidate : c.row.config.gasLimit * c.row.config.feeCapWei + attempt.l1FeeBound ≤
      c.fullReserve := Nat.add_le_add_left within.2.1 _
  refine (sendAllowed_iff within.1).mpr ⟨?_, ?_, left, fun charged => ?_⟩
  · exact ((sendAllowed_iff first_within.1).mp c.admitted).1
  · rw [inFlightMaxWei_eq retried.toLedgered]
    omega
  · rw [inFlightMaxWei_eq retried.toLedgered, if_pos charged]
    have slot := retried.slot
    cases k with
    | zero =>
      -- The only reservation is the slot itself, and the first send left it room.
      have alone := retried.alone rfl
      have first := first_room (lt_of_lt_of_le charged within.2.1)
      omega
    | succ j =>
      have rest := retried.rest j rfl
      have : (j + 1) * c.fullReserve = j * c.fullReserve + c.fullReserve :=
        Nat.succ_mul j c.fullReserve
      omega

/-! ## And it is needed -/

variable (c)

def priorityOf : FeeQuote → Nat
  | .eip1559 _ maxPriorityFeePerGas => maxPriorityFeePerGas
  | .legacy _ => 0

/-- Quotes at the fee cap, no two alike and none the first. -/
def cappedQuote (i : Nat) : FeeQuote :=
  .eip1559 c.row.config.feeCapWei (priorityOf c.first.quote + 1 + i)

def cappedAttempt (i : Nat) : Attempt where
  quote := c.cappedQuote i
  l1FeeBound := c.first.l1FeeBound
  now := c.first.now

/-- The row after `i` retries, each at the fee cap and each priced anew. -/
def cappedRetries : Nat → RetryState
  | 0 => c.row.failedBroadcast c.start c.first
  | i + 1 => c.row.failedBroadcast (cappedRetries i) (c.cappedAttempt i)

variable {c}

theorem cappedAttempt_within (i : Nat) : c.Within (c.cappedAttempt i) :=
  ⟨le_rfl, le_rfl, le_rfl⟩

theorem cappedQuote_ne_first (i : Nat) : c.cappedQuote i ≠ c.first.quote := by
  intro h
  have priorities := congrArg priorityOf h
  simp only [cappedQuote, priorityOf] at priorities
  omega

theorem cappedQuote_injective : Function.Injective c.cappedQuote := by
  intro i j h
  have priorities := congrArg priorityOf h
  simp only [cappedQuote, priorityOf] at priorities
  omega

theorem record_key_ne {a b : Attempt} (h : a.quote ≠ b.quote) :
    (c.row.record a).key ≠ (c.row.record b).key := fun same =>
  h (c.row.signed_injective (Prod.mk.inj same).2)

/-- No retry so far, and no send before them, was signed with quote `i`. -/
theorem cappedRetries_fresh (i : Nat) :
    ∀ j ≥ i, ∀ r ∈ (c.cappedRetries i).ledger.sends,
      r.key ≠ (c.row.record (c.cappedAttempt j)).key := by
  induction i with
  | zero =>
    intro j _ r hr
    obtain present | ⟨rfl, -⟩ := Table.mem_insertIfAbsent.mp hr
    · exact c.unsent r present _
    · exact record_key_ne (cappedQuote_ne_first j).symm
  | succ i ih =>
    intro j hj r hr
    obtain present | ⟨rfl, -⟩ := Table.mem_insertIfAbsent.mp hr
    · exact ih j (by omega) r present
    · exact record_key_ne fun h => by
        have := cappedQuote_injective h
        omega

/-- Each of them reserves in full. -/
theorem cappedRetries_sums (i : Nat) :
    c.Ledgered (c.cappedRetries i) ∧
      (c.cappedRetries i).attempts = c.start.attempts + 1 + i ∧
      (c.row.inFlight (c.cappedRetries i).ledger).boundedWei =
        c.firstReserve + i * c.fullReserve := by
  induction i with
  | zero =>
    refine ⟨ledgered_failedBroadcast start_ledgered c.first, rfl, ?_⟩
    rw [Nat.zero_mul]
    exact after_first.1
  | succ i ih =>
    obtain ⟨ledgered, attempts, total⟩ := ih
    refine ⟨ledgered_failedBroadcast ledgered _, congrArg (· + 1) attempts, ?_⟩
    have sums := failedBroadcast_repriced ledgered (cappedRetries_fresh i i le_rfl)
    rw [total] at sums
    rw [Nat.succ_mul, ← Nat.add_assoc]
    exact sums.1

/-- If no retry is ever refused, all of these are made. -/
theorem cappedRetries_reachable (never : c.NeverWedged) (i : Nat)
    (left : c.start.attempts + 1 + i ≤ c.row.config.maxAttempts) :
    c.retries.Reachable (c.cappedRetries i) := by
  induction i with
  | zero => exact .of_initial rfl
  | succ i ih =>
    have reached := ih (by omega)
    have attempts := (cappedRetries_sums (c := c) i).2.1
    have within := cappedAttempt_within (c := c) i
    exact reached.step ⟨within, never _ reached _ within (by omega), rfl⟩

theorem room_of_neverWedged (never : c.NeverWedged) : c.RoomForAll := by
  unfold RoomForAll
  by_cases used : c.row.config.maxAttempts ≤ c.start.attempts + 1
  · exact Or.inl used
  right
  -- The last attempt the row has, after every other one was made at the fee cap.
  obtain ⟨k, last⟩ : ∃ k, c.row.config.maxAttempts = c.start.attempts + 1 + (k + 1) :=
    ⟨c.row.config.maxAttempts - (c.start.attempts + 2), by omega⟩
  obtain ⟨ledgered, attempts, total⟩ := cappedRetries_sums (c := c) k
  have reached := cappedRetries_reachable never k (by omega)
  have allowed := never _ reached _ (cappedAttempt_within k) (by omega)
  have within := ((sendAllowed_iff (cappedAttempt_within (c := c) k).1).mp allowed).2.1
  rw [inFlightMaxWei_eq ledgered, total] at within
  unfold SendLedger.spentTodayWei at within
  rw [ledgered.spend] at within
  have remaining : c.row.config.maxAttempts - (c.start.attempts + 1) = k + 1 := by omega
  rw [remaining, Nat.succ_mul]
  change c.spent + _ + c.row.config.gasLimit * c.row.config.feeCapWei + c.first.l1FeeBound ≤ _
    at within
  have full : c.fullReserve =
      c.row.config.gasLimit * c.row.config.feeCapWei + c.first.l1FeeBound := rfl
  omega

/-- A row whose first broadcast failed is never refused a retry, whatever its
retries cost, exactly when the daily cap holds a full reservation for every
attempt it has left. -/
theorem never_wedged_iff (c : FailedFirstSend) : c.NeverWedged ↔ c.RoomForAll := by
  constructor
  · exact room_of_neverWedged
  · intro room s reached next within left
    obtain ⟨k, retried⟩ := reachable_retried reached
    exact allowed_of_room room retried within left

end FailedFirstSend

/-! ## The default settings on the local chain -/

/-- A signed transaction is named here by the quote it carries. -/
def quoteName : FeeQuote → Hash
  | .eip1559 maxFeePerGas maxPriorityFeePerGas => 2 * Nat.pair maxFeePerGas maxPriorityFeePerGas
  | .legacy gasPrice => 2 * gasPrice + 1

theorem quoteName_injective : Function.Injective quoteName := by
  intro a b (h : (quoteName a : Nat) = quoteName b)
  cases a with
  | eip1559 m p =>
    cases b with
    | eip1559 m' p' =>
      have same : Nat.pair m p = Nat.pair m' p' := Nat.eq_of_mul_eq_mul_left two_pos h
      obtain ⟨rfl, rfl⟩ := Nat.pair_eq_pair.mp same
      rfl
    | legacy g =>
      have parity : 2 * Nat.pair m p = 2 * g + 1 := h
      omega
  | legacy g =>
    cases b with
    | eip1559 m p =>
      have parity : 2 * g + 1 = 2 * Nat.pair m p := h
      omega
    | legacy g' =>
      have same : g = g' := Nat.eq_of_mul_eq_mul_left two_pos (Nat.succ.inj h)
      rw [same]

def localRow (dailySpendCapWei : Nat) : RetryRow where
  config := localConfig dailySpendCapWei
  transactionId := 1
  tenantId := 1
  signer := 0x5161
  nonce := 7
  blockGasLimit := 30000000
  signed := quoteName
  signed_injective := quoteName_injective

def unsentState : RetryState := ⟨0, ⟨Table.empty, Table.empty⟩⟩

/-- A first send at the fee cap, on empty ledgers. -/
def localFirstSend (dailySpendCapWei : Nat)
    (fits : 2 * (localRow dailySpendCapWei).config.gasLimit *
      (localRow dailySpendCapWei).config.feeCapWei ≤ dailySpendCapWei)
    (admitted : (localRow dailySpendCapWei).Allowed unsentState
      ⟨.eip1559 100000000000 1, 0, 0⟩) : FailedFirstSend where
  row := localRow dailySpendCapWei
  start := unsentState
  first := ⟨.eip1559 100000000000 1, 0, 0⟩
  cap_fits_two := fits
  maxAttempts_pos := by simp [localRow, localConfig]
  idle _ h := absurd h (Table.not_mem_empty _)
  unsent _ h := absurd h (Table.not_mem_empty _)
  unmined _ h := absurd h (Table.not_mem_empty _)
  admitted := admitted

/-- Under the smallest accepted cap the second differently priced retry is
refused: two reservations already fill the cap. -/
theorem never_wedged_fails_smallest_cap : ¬ ∀ c : FailedFirstSend, c.NeverWedged := by
  intro claim
  have room := FailedFirstSend.room_of_neverWedged
    (claim (localFirstSend 40000000000000000 (by decide) (by decide)))
  exact absurd room (by decide)

/-- With room for three reservations the same row is never refused. -/
theorem never_wedged_iff_three_fit :
    (localFirstSend 60000000000000000 (by decide) (by decide)).NeverWedged :=
  (FailedFirstSend.never_wedged_iff _).mpr (by decide)

end MpcRegistry.Worker
