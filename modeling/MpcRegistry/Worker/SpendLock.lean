import MpcRegistry.Library.Transition
import MpcRegistry.Worker.SubmitPending

/-!
# Spend admission under the chain lock

Source: apps/anchor-worker/src/anchor-submitter.ts:654-765 (spentTodayWei,
inFlightSends, lockChainSpend, submitPending), :840-931 (recordSend), :1038-1110
(settleSend, settle) and :1457-1482 (trackPending's receipt accounting). Every
worker on one chain takes the lock, reads the gas ledger and then the send
ledger, each in a snapshot of its own, and records its send; settlements of
other workers commit between any two of these statements, without the lock. The
broadcast itself touches neither ledger.
-/
namespace MpcRegistry.Worker.SpendLock

open Library SendLedger

/-- Where a worker's submitting transaction stands. `now` is its start; a read
keeps the ledger it saw. -/
inductive Phase where
  | idle
  | begun (now : Timestamp)
  | locked (now : Timestamp)
  | spentRead (now : Timestamp) (spent : SendLedger)
  | evaluated (now : Timestamp) (spent inFlight : SendLedger)
  | recorded

def Phase.HoldsLock : Phase → Prop
  | .idle | .begun _ => False
  | .locked _ | .spentRead _ _ | .evaluated _ _ _ | .recorded => True

structure State where
  ledger : SendLedger
  holder : Option Nat
  phase : Nat → Phase

def State.setPhase (s : State) (w : Nat) (phase : Phase) : State :=
  { s with phase := Function.update s.phase w phase }

/-- The row's side of one evaluation, and what the chain client answered. -/
structure Request where
  attempts : Nat
  transactionId : Nat
  tenantId : Nat
  fees : FeeQuote
  l1FeeBound : Nat
  blockGasLimit : Nat
  prepared : PreparedSend
  sentAt : Timestamp
  deriving DecidableEq, Repr

inductive Action where
  | begin (w : Nat) (now : Timestamp)
  | lock (w : Nat)
  | readSpent (w : Nat)
  | readInFlight (w : Nat)
  | record (w : Nat) (request : Request)
  /-- The transaction ends, committed or not, and the lock with it. -/
  | finish (w : Nat)
  /-- Some worker's settlement by receipt. -/
  | receipt (now : Timestamp) (txHash : Hash) (transactionId tenantId : Nat) (receipt : Receipt)
  /-- A settlement that is not by receipt. -/
  | release (now : Timestamp) (txHash : Hash) (reason : SettledReason)
  | check (now : Timestamp) (txHash : Hash)

/-- Both guards, on the two snapshots and, for the retry slot, the ledger of the
statement that reads it. -/
def Admits (config : SubmitterConfig) (now : Timestamp) (spent inFlight current : SendLedger)
    (request : Request) : Prop :=
  sendAllowed config request.attempts (spent.spentTodayWei config.chainId now)
    (inFlightMaxWei (inFlight.inFlightSends config.chainId config.feeCapWei)
      request.blockGasLimit config.feeCapWei)
    request.fees request.l1FeeBound
    (if 0 < request.l1FeeBound then
      current.retryReservation config.chainId request.transactionId request.prepared.signer
        request.prepared.nonce config.feeCapWei
    else 0)

instance (config now spent inFlight current request) :
    Decidable (Admits config now spent inFlight current request) :=
  inferInstanceAs (Decidable (sendAllowed ..))

inductive Step (config : SubmitterConfig) : State → Action → State → Prop where
  | begin (w : Nat) (now : Timestamp) {s} (idle : s.phase w = .idle) :
    Step config s (.begin w now) (s.setPhase w (.begun now))
  | lock (w : Nat) {s now} (begun : s.phase w = .begun now) (free : s.holder = none) :
    Step config s (.lock w) { s.setPhase w (.locked now) with holder := some w }
  | readSpent (w : Nat) {s now} (locked : s.phase w = .locked now) :
    Step config s (.readSpent w) (s.setPhase w (.spentRead now s.ledger))
  | readInFlight (w : Nat) {s now spent} (read : s.phase w = .spentRead now spent) :
    Step config s (.readInFlight w) (s.setPhase w (.evaluated now spent s.ledger))
  | record (w : Nat) (request : Request) {s now spent inFlight}
    (evaluated : s.phase w = .evaluated now spent inFlight)
    (admitted : Admits config now spent inFlight s.ledger request) :
    Step config s (.record w request)
      { s.setPhase w .recorded with
        ledger := s.ledger.recordSend
          (sendRecord config request.transactionId request.tenantId request.prepared
            request.l1FeeBound request.sentAt) }
  | finish (w : Nat) {s} :
    Step config s (.finish w)
      { s.setPhase w .idle with holder := if s.holder = some w then none else s.holder }
  | receipt (now : Timestamp) (txHash : Hash) (transactionId tenantId : Nat) (receipt : Receipt)
    {s} :
    Step config s (.receipt now txHash transactionId tenantId receipt)
      { s with
        ledger :=
          s.ledger.recordReceipt now config.chainId txHash transactionId tenantId receipt }
  | release (now : Timestamp) (txHash : Hash) (reason : SettledReason) {s} (other : reason ≠ .receipt) :
    Step config s (.release now txHash reason)
      { s with ledger := s.ledger.settle now config.chainId txHash reason }
  | check (now : Timestamp) (txHash : Hash) {s} :
    Step config s (.check now txHash)
      { s with ledger := s.ledger.stampChecked now config.chainId txHash }

/-- No cost is recorded for a send that is still open: the migration that
created the send ledger carried over no other row. -/
def OpenUnspent (ledger : SendLedger) : Prop :=
  ∀ r ∈ ledger.sends, r.settlement = none → ∀ g ∈ ledger.spend, g.key ≠ r.key

/-- Every worker idle, on any ledger the migrations leave. -/
def system (config : SubmitterConfig) : System State Action where
  initial s := OpenUnspent s.ledger ∧ s.holder = none ∧ ∀ w, s.phase w = .idle
  step := Step config

/-- A cost recorded today for this key. -/
def CostToday (chainId : Nat) (now : Timestamp) (ledger : SendLedger) (key : Nat × Hash) : Prop :=
  ∃ g ∈ ledger.spend, g.key = key ∧ SpentToday chainId now g

/-- Still unsettled, or with its receipt recorded today. -/
def Owed (chainId : Nat) (now : Timestamp) (ledger : SendLedger) (r : AnchorSend) : Prop :=
  r.chainId = chainId ∧ (r.settlement = none ∨ CostToday chainId now ledger r.key)

/-- The most a send in flight can burn, as the guard prices it. -/
def maxWei (config : SubmitterConfig) (blockGasLimit : Nat) (r : AnchorSend) : Nat :=
  if r.gasLimit = none then blockGasLimit * config.feeCapWei else r.reserved config.feeCapWei

/-- One of the two sums an evaluation adds has a row of this key among its
terms. -/
def Counted (config : SubmitterConfig) (now : Timestamp) (spent inFlight : SendLedger)
    (key : Nat × Hash) : Prop :=
  (∃ g ∈ spent.spend, g.key = key ∧ SpentToday config.chainId now g ∧
      g.cost ≤ spent.spentTodayWei config.chainId now) ∨
    ∃ r ∈ inFlight.sends, r.key = key ∧ inFlight.InFlight config.chainId r ∧
      ∀ blockGasLimit, maxWei config blockGasLimit r ≤
        inFlightMaxWei (inFlight.inFlightSends config.chainId config.feeCapWei) blockGasLimit
          config.feeCapWei

/-- Every evaluation counts every send that is owed. An evaluating worker holds
the lock and has recorded nothing itself, so all of them were admitted earlier. -/
def NoSendLost (config : SubmitterConfig) (s : State) : Prop :=
  ∀ w now spent inFlight, s.phase w = .evaluated now spent inFlight →
    ∀ r ∈ s.ledger.sends, Owed config.chainId now s.ledger r →
      Counted config now spent inFlight r.key

/-- What an evaluation under way needs of a cost that enters the gas ledger: it
is not one of its day, or it stands past both reads and the send was open. -/
def Phase.Tolerates (ledger : SendLedger) (observedAt : Timestamp) (key : Nat × Hash) :
    Phase → Prop
  | .spentRead now _ => observedAt < dayStart now
  | .evaluated now _ _ =>
    observedAt < dayStart now ∨ ∃ r ∈ ledger.sends, r.key = key ∧ r.settlement = none
  | _ => True

/-- The steps that lose nothing: no recorded send's cost enters the gas ledger
between the two reads of an evaluation of its day, and no send is recorded under
a hash whose cost is in the gas ledger already. -/
def Undisturbed (config : SubmitterConfig) (s : State) : Action → Prop
  | .receipt now txHash _ _ _ =>
    (∃ r ∈ s.ledger.sends, r.key = (config.chainId, txHash)) →
    (∀ g ∈ s.ledger.spend, g.key ≠ (config.chainId, txHash)) →
    ∀ w, (s.phase w).Tolerates s.ledger now (config.chainId, txHash)
  | .record _ request =>
    (∀ r ∈ s.ledger.sends, r.key ≠ (config.chainId, request.prepared.txHash)) →
    ∀ g ∈ s.ledger.spend, g.key ≠ (config.chainId, request.prepared.txHash)
  | _ => True

variable {config : SubmitterConfig} {s t : State}

@[simp] theorem setPhase_ledger (w : Nat) (phase : Phase) :
    (s.setPhase w phase).ledger = s.ledger := rfl

theorem setPhase_phase (w : Nat) (phase : Phase) (v : Nat) :
    (s.setPhase w phase).phase v = if v = w then phase else s.phase v := by
  simp [State.setPhase, Function.update_apply]

/-! ## What a counted row adds to the budget -/

theorem maxWei_le_inFlightMaxWei {ledger : SendLedger} {r : AnchorSend} (h : r ∈ ledger.sends)
    (opened : ledger.InFlight config.chainId r) (blockGasLimit : Nat) :
    maxWei config blockGasLimit r ≤
      inFlightMaxWei (ledger.inFlightSends config.chainId config.feeCapWei) blockGasLimit
        config.feeCapWei := by
  unfold maxWei inFlightMaxWei
  split
  next unbounded =>
    have one := unbounded_pos config.feeCapWei h opened unbounded
    rw [Nat.mul_assoc]
    exact le_trans (Nat.le_mul_of_pos_left _ one) (Nat.le_add_left _ _)
  next bounded =>
    exact le_trans (reserved_le_boundedWei config.feeCapWei h opened bounded)
      (Nat.le_add_right _ _)

theorem counted_of_spent {now : Timestamp} {spent inFlight : SendLedger} {key : Nat × Hash}
    (h : CostToday config.chainId now spent key) : Counted config now spent inFlight key := by
  obtain ⟨g, hg, same, today⟩ := h
  exact Or.inl ⟨g, hg, same, today, cost_le_spentTodayWei hg today⟩

theorem counted_of_inFlight {now : Timestamp} {spent inFlight : SendLedger} {r : AnchorSend}
    (h : r ∈ inFlight.sends) (opened : inFlight.InFlight config.chainId r) :
    Counted config now spent inFlight r.key :=
  Or.inr ⟨r, h, rfl, opened, maxWei_le_inFlightMaxWei h opened⟩

/-! ## The invariant -/

/-- Beside the result itself: an open send has no cost yet, only the holder of
the lock is past it, and a worker between its reads has seen every cost of its
day that a send has. -/
structure Invariant (config : SubmitterConfig) (s : State) : Prop where
  open_unspent : OpenUnspent s.ledger
  held : ∀ w, (s.phase w).HoldsLock → s.holder = some w
  seen : ∀ w now spent, s.phase w = .spentRead now spent → ∀ r ∈ s.ledger.sends,
    CostToday config.chainId now s.ledger r.key → CostToday config.chainId now spent r.key
  counted : NoSendLost config s

/-- A step that only moves one worker keeps it, when what the worker now holds
is right. -/
theorem Invariant.setPhase (inv : Invariant config s) {w : Nat} {phase : Phase}
    {holder : Option Nat}
    (held : ∀ v, ((s.setPhase w phase).phase v).HoldsLock → holder = some v)
    (seen : ∀ now spent, phase = .spentRead now spent → ∀ r ∈ s.ledger.sends,
      CostToday config.chainId now s.ledger r.key → CostToday config.chainId now spent r.key)
    (counted : ∀ now spent inFlight, phase = .evaluated now spent inFlight →
      ∀ r ∈ s.ledger.sends, Owed config.chainId now s.ledger r →
        Counted config now spent inFlight r.key) :
    Invariant config { s.setPhase w phase with holder := holder } where
  open_unspent := inv.open_unspent
  held := held
  seen v now spent h := by
    change (s.setPhase w phase).phase v = _ at h
    rw [setPhase_phase] at h
    split at h
    · exact seen now spent h
    · exact inv.seen v now spent h
  counted v now spent inFlight h := by
    change (s.setPhase w phase).phase v = _ at h
    rw [setPhase_phase] at h
    split at h
    · exact counted now spent inFlight h
    · exact inv.counted v now spent inFlight h

/-- Moving a worker that holds the lock, or to a phase that does not need it. -/
theorem Invariant.held_setPhase (inv : Invariant config s) {w : Nat} {phase : Phase}
    (own : phase.HoldsLock → s.holder = some w) (v : Nat)
    (h : ((s.setPhase w phase).phase v).HoldsLock) : s.holder = some v := by
  rw [setPhase_phase] at h
  split at h
  next same => rw [same]; exact own h
  next => exact inv.held v h

/-- While one worker is past the lock no other is. -/
theorem Invariant.alone (inv : Invariant config s) {w v : Nat} (hw : (s.phase w).HoldsLock)
    (hv : (s.phase v).HoldsLock) : v = w :=
  Option.some.inj ((inv.held v hv).symm.trans (inv.held w hw))

/-- The row a settlement left: its key, and open only if it was. -/
theorem settle_from {ledger : SendLedger} {now : Timestamp} {chainId : Nat} {txHash : Hash}
    {reason : SettledReason} {r : AnchorSend}
    (h : r ∈ (ledger.settle now chainId txHash reason).sends) :
    ∃ r' ∈ ledger.sends, r'.key = r.key ∧
      (r.settlement = none → r'.settlement = none ∧ r.key ≠ (chainId, txHash)) := by
  obtain ⟨r', hr', ⟨-, -, rfl⟩ | ⟨closed, rfl⟩⟩ := mem_settle.mp h
  · exact ⟨r', hr', rfl, nofun⟩
  · exact ⟨r, hr', rfl, fun opened => ⟨opened, fun here => closed here opened⟩⟩

theorem stampChecked_from {ledger : SendLedger} {now : Timestamp} {chainId : Nat} {txHash : Hash}
    {r : AnchorSend} (h : r ∈ (ledger.stampChecked now chainId txHash).sends) :
    ∃ r' ∈ ledger.sends, r'.key = r.key ∧ (r.settlement = none → r'.settlement = none) := by
  obtain ⟨r', hr', rfl | rfl⟩ := mem_stampChecked h
  · exact ⟨r, hr', rfl, id⟩
  · exact ⟨r', hr', rfl, id⟩

/-- A change of the send ledger alone that opens nothing keeps the invariant. -/
theorem Invariant.of_sends (inv : Invariant config s) {ledger : SendLedger}
    (spend : ledger.spend = s.ledger.spend)
    (sends : ∀ r ∈ ledger.sends, ∃ r' ∈ s.ledger.sends, r'.key = r.key ∧
      (r.settlement = none → r'.settlement = none)) :
    Invariant config { s with ledger := ledger } where
  open_unspent r hr opened g hg := by
    obtain ⟨r', hr', same, before⟩ := sends r hr
    rw [← same]
    exact inv.open_unspent r' hr' (before opened) g (spend ▸ hg)
  held := inv.held
  seen w now spent h r hr cost := by
    obtain ⟨r', hr', same, -⟩ := sends r hr
    rw [← same] at cost ⊢
    refine inv.seen w now spent h r' hr' ?_
    unfold CostToday at cost
    rw [spend] at cost
    exact cost
  counted w now spent inFlight h r hr owed := by
    obtain ⟨r', hr', same, before⟩ := sends r hr
    obtain ⟨onChain, due⟩ := owed
    rw [← same]
    refine inv.counted w now spent inFlight h r' hr' ⟨?_, ?_⟩
    · exact (Prod.mk.inj same).1.trans onChain
    · rcases due with opened | cost
      · exact Or.inl (before opened)
      · unfold CostToday at cost
        rw [spend, ← same] at cost
        exact Or.inr cost

/-! ## Receipts -/

/-- A cost of the gas ledger after a receipt is an old one, or the receipt's own,
under a key that had none. -/
theorem cost_after_receipt {now day : Timestamp} {txHash : Hash} {transactionId tenantId : Nat}
    {receipt : Receipt} {key : Nat × Hash}
    (h : CostToday config.chainId day
      (s.ledger.recordReceipt now config.chainId txHash transactionId tenantId receipt) key) :
    CostToday config.chainId day s.ledger key ∨
      key = (config.chainId, txHash) ∧ dayStart day ≤ now ∧
        ∀ g ∈ s.ledger.spend, g.key ≠ (config.chainId, txHash) := by
  obtain ⟨g, hg, same, today⟩ := h
  obtain old | ⟨rfl, fresh⟩ := Table.mem_insertIfAbsent.mp hg
  · exact Or.inl ⟨g, old, same, today⟩
  · exact Or.inr ⟨same.symm, today.2, fresh⟩

theorem Invariant.receipt (inv : Invariant config s) {now : Timestamp} {txHash : Hash}
    {transactionId tenantId : Nat} {receipt : Receipt}
    (undisturbed : Undisturbed config s (.receipt now txHash transactionId tenantId receipt)) :
    Invariant config
      { s with
        ledger :=
          s.ledger.recordReceipt now config.chainId txHash transactionId tenantId receipt } where
  open_unspent r hr opened g hg := by
    obtain ⟨r', hr', same, before⟩ := settle_from hr
    obtain ⟨openedBefore, elsewhere⟩ := before opened
    obtain old | ⟨rfl, -⟩ := Table.mem_insertIfAbsent.mp hg
    · rw [← same]
      exact inv.open_unspent r' hr' openedBefore g old
    · exact elsewhere.symm
  held := inv.held
  seen w day spent h r hr cost := by
    obtain ⟨r', hr', same, -⟩ := settle_from hr
    rw [← same] at cost ⊢
    rcases cost_after_receipt cost with old | ⟨here, today, fresh⟩
    · exact inv.seen w day spent h r' hr' old
    · have tolerated := undisturbed ⟨r', hr', here⟩ fresh w
      rw [h] at tolerated
      exact absurd today (Nat.not_le.mpr tolerated)
  counted w day spent inFlight h r hr owed := by
    obtain ⟨r', hr', same, before⟩ := settle_from hr
    obtain ⟨onChain, due⟩ := owed
    have onChain' : r'.chainId = config.chainId := (Prod.mk.inj same).1.trans onChain
    rw [← same] at due ⊢
    rcases due with opened | cost
    · exact inv.counted w day spent inFlight h r' hr' ⟨onChain', Or.inl (before opened).1⟩
    rcases cost_after_receipt cost with old | ⟨here, today, fresh⟩
    · exact inv.counted w day spent inFlight h r' hr' ⟨onChain', Or.inr old⟩
    · have tolerated := undisturbed ⟨r', hr', here⟩ fresh w
      rw [h] at tolerated
      rcases tolerated with earlier | ⟨q, hq, atKey, opened⟩
      · exact absurd today (Nat.not_le.mpr earlier)
      · -- The send was open when both reads were made, so the second one saw it.
        rw [here, ← atKey]
        exact inv.counted w day spent inFlight h q hq ⟨(Prod.mk.inj atKey).1, Or.inl opened⟩

/-! ## Recording a send -/

theorem Invariant.record (inv : Invariant config s) {w : Nat} {now : Timestamp}
    {spent inFlight : SendLedger} {request : Request}
    (evaluated : s.phase w = .evaluated now spent inFlight)
    (undisturbed : Undisturbed config s (.record w request)) :
    Invariant config
      { s.setPhase w .recorded with
        ledger := s.ledger.recordSend
          (sendRecord config request.transactionId request.tenantId request.prepared
            request.l1FeeBound request.sentAt) } := by
  have holds : (s.phase w).HoldsLock := by rw [evaluated]; trivial
  -- No other worker is past the lock, and this one leaves its evaluation.
  have none_evaluating : ∀ v, ((s.setPhase w .recorded).phase v).HoldsLock →
      (s.setPhase w .recorded).phase v = .recorded := by
    intro v hv
    rw [setPhase_phase] at hv ⊢
    split
    · rfl
    next other =>
      rw [if_neg other] at hv
      exact absurd (inv.alone holds hv) other
  refine ⟨?_, inv.held_setPhase fun _ => inv.held w holds, ?_, ?_⟩
  · intro r hr opened g hg
    obtain old | ⟨rfl, fresh⟩ := Table.mem_insertIfAbsent.mp hr
    · exact inv.open_unspent r old opened g hg
    · exact undisturbed fresh g hg
  · intro v day read h
    have recorded := none_evaluating v (by rw [show _ = _ from h]; trivial)
    rw [show (s.setPhase w .recorded).phase v = _ from h] at recorded
    cases recorded
  · intro v day read read' h
    have recorded := none_evaluating v (by rw [show _ = _ from h]; trivial)
    rw [show (s.setPhase w .recorded).phase v = _ from h] at recorded
    cases recorded

/-! ## Every run -/

theorem Invariant.step (inv : Invariant config s) {action : Action}
    (undisturbed : Undisturbed config s action) (step : Step config s action t) :
    Invariant config t := by
  cases step with
  | begin w now idle =>
    exact inv.setPhase (inv.held_setPhase (False.elim ·)) nofun nofun
  | @lock w _ now begun free =>
    refine inv.setPhase (fun v hv => ?_) nofun nofun
    rw [setPhase_phase] at hv
    split at hv
    next same => rw [same]
    next => exact absurd (inv.held v hv) (by rw [free]; nofun)
  | @readSpent w _ now locked =>
    have holds : s.holder = some w := inv.held w (by rw [locked]; trivial)
    refine inv.setPhase (inv.held_setPhase fun _ => holds) ?_ nofun
    rintro day spent h r hr cost
    cases h
    exact cost
  | @readInFlight w _ now spent read =>
    have holds : s.holder = some w := inv.held w (by rw [read]; trivial)
    refine inv.setPhase (inv.held_setPhase fun _ => holds) nofun ?_
    rintro day spent inFlight h r hr ⟨onChain, due⟩
    cases h
    rcases due with opened | cost
    · exact counted_of_inFlight hr ⟨onChain, opened, inv.open_unspent r hr opened⟩
    · exact counted_of_spent (inv.seen w now spent read r hr cost)
  | record w request evaluated admitted => exact inv.record evaluated undisturbed
  | finish w =>
    refine inv.setPhase (fun v hv => ?_) nofun nofun
    rw [setPhase_phase] at hv
    split at hv
    next => exact hv.elim
    next other =>
      have held := inv.held v hv
      rw [held, if_neg fun same => other (Option.some.inj same)]
  | receipt => exact inv.receipt undisturbed
  | release now txHash reason other =>
    refine inv.of_sends rfl fun r hr => ?_
    obtain ⟨r', hr', same, before⟩ := settle_from hr
    exact ⟨r', hr', same, fun opened => (before opened).1⟩
  | check => exact inv.of_sends rfl fun r hr => stampChecked_from hr

/-- In every run that never settles a send by receipt between the two reads of
an evaluation, every evaluation counts every send that is unsettled or whose
receipt was recorded on its day. -/
theorem no_send_lost (config : SubmitterConfig) (s : State)
    (reached : ((system config).restrict (Undisturbed config)).Reachable s) :
    NoSendLost config s := by
  have inv : Invariant config s := by
    refine reached.invariant ?_ fun u action v inv step => inv.step step.1 step.2
    rintro s₀ ⟨unspent, -, idle⟩
    refine ⟨unspent, ?_, ?_, ?_⟩
    · intro w hw
      rw [idle w] at hw
      exact hw.elim
    · intro w now spent h
      rw [idle w] at h
      cases h
    · intro w now spent inFlight h
      rw [idle w] at h
      cases h
  exact inv.counted

/-! ## A settlement between the two reads -/

def start : State := ⟨⟨Table.empty, Table.empty⟩, none, fun _ => .idle⟩

def request : Request where
  attempts := 0
  transactionId := 1
  tenantId := 1
  fees := .eip1559 100000000000 1
  l1FeeBound := 0
  blockGasLimit := 30000000
  prepared := ⟨0xabc, 0x5161, 7, 200000, 100000000000⟩
  sentAt := 11

/-- The first worker's send, as its ledger row and once settled by receipt. -/
def firstSend : AnchorSend := sendRecord (localConfig 60000000000000000) 1 1 request.prepared 0 11

def firstReceipt : Receipt := ⟨.success, 100, 0xb10c, 150000, 100000000000, 0, []⟩

theorem start_reachable (config : SubmitterConfig) (ok : State → Action → Prop) :
    ((system config).restrict ok).Reachable start :=
  .of_initial ⟨fun _ h => absurd h (Table.not_mem_empty _), rfl, fun _ => rfl⟩

/-- The second worker reads the spend before the first send's receipt commits
and the open sends after it: neither sum holds the send. -/
theorem no_send_lost_fails_between_reads :
    ¬ ∀ (config : SubmitterConfig) (s : State), (system config).Reachable s →
      NoSendLost config s := by
  intro claim
  have r₀ := (start_reachable (localConfig 60000000000000000) fun _ _ => True).of_restrict
  have r₁ := r₀.step (.begin 1 10 rfl)
  have r₂ := r₁.step (.lock 1 rfl rfl)
  have r₃ := r₂.step (.readSpent 1 rfl)
  have r₄ := r₃.step (.readInFlight 1 rfl)
  have r₅ := r₄.step (.record 1 request rfl (by decide))
  have r₆ := r₅.step (.finish 1)
  have r₇ := r₆.step (.begin 2 20 rfl)
  have r₈ := r₇.step (.lock 2 rfl rfl)
  have r₉ := r₈.step (.readSpent 2 rfl)
  have r₁₀ := r₉.step (.receipt 21 0xabc 1 1 firstReceipt)
  have r₁₁ := r₁₀.step (.readInFlight 2 rfl)
  have counted := claim _ _ r₁₁ 2 20 _ _ rfl (firstSend.settled 21 .receipt) (by decide)
    ⟨rfl, Or.inr ⟨_, List.mem_singleton_self _, rfl, by decide⟩⟩
  rcases counted with ⟨g, hg, -⟩ | ⟨r, hr, -, opened, -⟩
  · exact Table.not_mem_empty g hg
  · rw [List.mem_singleton.mp hr] at opened
    exact absurd opened.2.1 (by decide)

theorem undisturbed_step {action : Action}
    (reached : ((system config).restrict (Undisturbed config)).Reachable s)
    (step : Step config s action t) (undisturbed : Undisturbed config s action) :
    ((system config).restrict (Undisturbed config)).Reachable t :=
  reached.step ⟨undisturbed, step⟩

/-- Undisturbed, the second worker counts the first one's open send. -/
theorem no_send_lost_two_workers :
    ∃ now spent inFlight, firstSend ∈ inFlight.sends ∧
      Counted (localConfig 60000000000000000) now spent inFlight firstSend.key := by
  have r₀ := start_reachable (localConfig 60000000000000000)
    (Undisturbed (localConfig 60000000000000000))
  have r₁ := undisturbed_step r₀ (.begin 1 10 rfl) trivial
  have r₂ := undisturbed_step r₁ (.lock 1 rfl rfl) trivial
  have r₃ := undisturbed_step r₂ (.readSpent 1 rfl) trivial
  have r₄ := undisturbed_step r₃ (.readInFlight 1 rfl) trivial
  have r₅ := undisturbed_step r₄ (.record 1 request rfl (by decide)) fun _ g hg =>
    absurd hg (Table.not_mem_empty g)
  have r₆ := undisturbed_step r₅ (.finish 1) trivial
  have r₇ := undisturbed_step r₆ (.begin 2 20 rfl) trivial
  have r₈ := undisturbed_step r₇ (.lock 2 rfl rfl) trivial
  have r₉ := undisturbed_step r₈ (.readSpent 2 rfl) trivial
  have r₁₀ := undisturbed_step r₉ (.readInFlight 2 rfl) trivial
  have recorded := List.mem_singleton_self firstSend
  exact ⟨20, _, _, recorded,
    no_send_lost _ _ r₁₀ 2 20 _ _ rfl firstSend recorded ⟨rfl, Or.inl rfl⟩⟩

end MpcRegistry.Worker.SpendLock
