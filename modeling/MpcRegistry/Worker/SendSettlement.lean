import MpcRegistry.Library.Transition
import MpcRegistry.Worker.SubmitPending

/-!
# Settling the send ledger against a moving chain

Source: apps/anchor-worker/src/anchor-submitter.ts:947-1110 (SENDS_PER_PASS,
settleSends, settleSend, settle), :840-931 (recordSend), :1457-1482
(trackPending's receipt accounting) and
apps/anchor-worker/src/viem-chain-client.ts:431-481 (confirmedNonce, observe).
The chain is one consistent node view: blocks above the permanent height may be
replaced at any time, blocks at or below it never are, a mined transaction's
receipt is returned, and a signer's transactions are mined in nonce order.
-/
namespace MpcRegistry.Worker.SendSettlement

open Library SendLedger

/-! ## The chain -/

/-- What a transaction hash commits to. -/
structure Signed where
  signer : Hash → Address
  nonce : Hash → Nat

/-- The transactions of the blocks up to `n`, in order. -/
def minedUpTo (blocks : Nat → List Hash) (n : Nat) : List Hash :=
  (List.range (n + 1)).flatMap blocks

/-- One signer's transactions among them. -/
def sentBy (signed : Signed) (blocks : Nat → List Hash) (signer : Address) (n : Nat) : List Hash :=
  (minedUpTo blocks n).filter fun h => signed.signer h = signer

/-- The chain as the node shows it. No signer's nonce is skipped or used twice. -/
structure View (signed : Signed) where
  blocks : Nat → List Hash
  head : Nat
  finalized : Nat
  beyond_head : ∀ n, head < n → blocks n = []
  nonces : ∀ signer n, (sentBy signed blocks signer n).map signed.nonce =
    List.range (sentBy signed blocks signer n).length

/-- `eth_getTransactionCount` at a block. -/
def View.confirmedNonce {signed : Signed} (view : View signed) (signer : Address) (n : Nat) : Nat :=
  (sentBy signed view.blocks signer n).length

def View.Mined {signed : Signed} (view : View signed) (txHash : Hash) : Prop :=
  ∃ n, txHash ∈ view.blocks n

/-! ## The workers -/

/-- Where a worker's `settleSends` pass stands. `depthBlock` and the nonces read
so far are those of the whole pass. -/
inductive Phase where
  | idle
  | selected (sends : List AnchorSend)
  | headRead (atDepth : Int) (sends : List AnchorSend)
  | ready (depthBlock : Option Int) (confirmedNonces : List (Address × Nat))
      (sends : List AnchorSend)
  | nonceRead (depthBlock : Option Int) (confirmedNonces : List (Address × Nat))
      (send : AnchorSend) (takenBelow : Option Nat) (rest : List AnchorSend)
  | observed (depthBlock : Option Int) (confirmedNonces : List (Address × Nat))
      (send : AnchorSend) (takenBelow : Option Nat) (observation : Observation)
      (rest : List AnchorSend)

/-- The ledger, the chain, and the greatest depth and finalized block the node
has shown so far. -/
structure State (signed : Signed) where
  ledger : SendLedger
  view : View signed
  deepest : Int
  finalized : Nat
  phase : Nat → Phase

variable {signed : Signed}

def State.setPhase (s : State signed) (w : Nat) (phase : Phase) : State signed :=
  { s with phase := Function.update s.phase w phase }

/-- The block `confirmationDepth` deep under a head. -/
def atDepth (config : SubmitterConfig) (head : Nat) : Int := head - config.confirmationDepth + 1

/-- Blocks at or below it never change again: deep enough under some head shown
and, with a tag, at or below some finalized head shown. -/
def State.permanent (config : SubmitterConfig) (s : State signed) : Int :=
  if config.finalityTag = .none then s.deepest else min s.deepest s.finalized

/-- `ORDER BY checked_at NULLS FIRST, sent_at`. -/
def sendOrder (a b : AnchorSend) : Prop :=
  match a.checkedAt, b.checkedAt with
  | none, none => a.sentAt ≤ b.sentAt
  | none, some _ => True
  | some _, none => False
  | some x, some y => x < y ∨ x = y ∧ a.sentAt ≤ b.sentAt

instance : DecidableRel sendOrder := fun a b => by
  unfold sendOrder
  cases a.checkedAt <;> cases b.checkedAt <;> infer_instance

def sendsPerPass : Nat := 10

/-- `Math.round(ms / 1000)` seconds. -/
def roundedSeconds (ms : Nat) : Nat := (ms + 500) / 1000 * 1000000

/-- The open sends one pass asks about. -/
def openSends (config : SubmitterConfig) (now : Timestamp) (ledger : SendLedger) :
    List AnchorSend :=
  ((ledger.sends.rows.filter fun s =>
      s.chainId = config.chainId ∧ s.settlement = none ∧
        ∀ checkedAt ∈ s.checkedAt, checkedAt + roundedSeconds config.recheckIntervalMs < now)
    |>.insertionSort sendOrder).take sendsPerPass

/-- The key of the nonce read of one send, when one is made: its signer and the
block to read at. -/
def nonceQuery (depthBlock : Option Int) (send : AnchorSend) : Option (Address × Nat) :=
  match send.nonce, send.signer, depthBlock with
  | some _, some signer, some block => if 0 ≤ block then some (signer, block.toNat) else none
  | _, _, _ => none

/-- settleSend after its observation. -/
def settleSend (config : SubmitterConfig) (now : Timestamp) (ledger : SendLedger)
    (send : AnchorSend) (takenBelow : Option Nat) (observation : Observation) : SendLedger :=
  match observation with
  | .receipt receipt =>
    ledger.recordReceipt now config.chainId send.txHash send.transactionId send.tenantId receipt
  | _ =>
    if ∃ taken ∈ takenBelow, ∃ nonce ∈ send.nonce, nonce < taken then
      ledger.settle now config.chainId send.txHash .nonceConsumed
    else ledger.stampChecked now config.chainId send.txHash

inductive Action where
  | evolve
  | record (txHash : Hash)
  | receipt (txHash : Hash)
  | pass (w : Nat)
  deriving DecidableEq, Repr

inductive Step (config : SubmitterConfig) : State signed → Action → State signed → Prop where
  /-- The chain moves on or reorganizes: any transactions may be mined, replaced
  or dropped above the permanent height. -/
  | evolve (view : View signed) {s}
    (permanent : ∀ n : Nat, (n : Int) ≤ s.permanent config → view.blocks n = s.view.blocks n) :
    Step config s .evolve
      { s with
        view := view
        deepest := max s.deepest (atDepth config view.head)
        finalized := max s.finalized view.finalized }
  /-- Some worker's `recordSend`; signing fixed the signer and the nonce. -/
  | record (prepared : PreparedSend) (transactionId tenantId l1FeeBound : Nat) (sentAt : Timestamp)
    {s} (bySigner : prepared.signer = signed.signer prepared.txHash)
    (atNonce : prepared.nonce = signed.nonce prepared.txHash) :
    Step config s (.record prepared.txHash)
      { s with
        ledger := s.ledger.recordSend
          (sendRecord config transactionId tenantId prepared l1FeeBound sentAt) }
  /-- Some worker's `trackPending` accounts for a receipt it saw. -/
  | receipt (now : Timestamp) (txHash : Hash) (transactionId tenantId : Nat) (receipt : Receipt)
    {s} :
    Step config s (.receipt txHash)
      { s with
        ledger :=
          s.ledger.recordReceipt now config.chainId txHash transactionId tenantId receipt }
  | select (w : Nat) (now : Timestamp) {s} (idle : s.phase w = .idle) :
    Step config s (.pass w) (s.setPhase w (.selected (openSends config now s.ledger)))
  | readHead (w : Nat) {s sends} (selected : s.phase w = .selected sends) :
    Step config s (.pass w)
      (s.setPhase w (if config.finalityTag = .none
        then .ready (some (atDepth config s.view.head)) [] sends
        else .headRead (atDepth config s.view.head) sends))
  | readFinalized (w : Nat) {s depth sends} (headRead : s.phase w = .headRead depth sends) :
    Step config s (.pass w)
      (s.setPhase w (.ready (some (min depth s.view.finalized)) [] sends))
  /-- The head or the tag could not be read: receipts only. -/
  | failDepth (w : Nat) {s sends}
    (reading : s.phase w = .selected sends ∨ ∃ depth, s.phase w = .headRead depth sends) :
    Step config s (.pass w) (s.setPhase w (.ready none [] sends))
  /-- No nonce to read, or the read failed. -/
  | skipNonce (w : Nat) {s depthBlock nonces send rest}
    (ready : s.phase w = .ready depthBlock nonces (send :: rest)) :
    Step config s (.pass w) (s.setPhase w (.nonceRead depthBlock nonces send none rest))
  | cachedNonce (w : Nat) {s depthBlock nonces send rest signer block taken}
    (ready : s.phase w = .ready depthBlock nonces (send :: rest))
    (query : nonceQuery depthBlock send = some (signer, block))
    (cached : nonces.lookup signer = some taken) :
    Step config s (.pass w) (s.setPhase w (.nonceRead depthBlock nonces send (some taken) rest))
  | readNonce (w : Nat) {s depthBlock nonces send rest signer block}
    (ready : s.phase w = .ready depthBlock nonces (send :: rest))
    (query : nonceQuery depthBlock send = some (signer, block))
    (uncached : nonces.lookup signer = none) :
    Step config s (.pass w)
      (s.setPhase w (.nonceRead depthBlock
        ((signer, s.view.confirmedNonce signer block) :: nonces) send
        (some (s.view.confirmedNonce signer block)) rest))
  /-- A mined transaction's receipt is returned. -/
  | observe (w : Nat) (observation : Observation) {s depthBlock nonces send taken rest}
    (read : s.phase w = .nonceRead depthBlock nonces send taken rest)
    (shown : s.view.Mined send.txHash → ∃ receipt, observation = .receipt receipt) :
    Step config s (.pass w)
      (s.setPhase w (.observed depthBlock nonces send taken observation rest))
  | failObserve (w : Nat) (now : Timestamp) {s depthBlock nonces send taken rest}
    (read : s.phase w = .nonceRead depthBlock nonces send taken rest) :
    Step config s (.pass w)
      { s.setPhase w (.ready depthBlock nonces rest) with
        ledger := s.ledger.stampChecked now config.chainId send.txHash }
  | settle (w : Nat) (now : Timestamp) {s depthBlock nonces send taken observation rest}
    (observed : s.phase w = .observed depthBlock nonces send taken observation rest) :
    Step config s (.pass w)
      { s.setPhase w (.ready depthBlock nonces rest) with
        ledger := settleSend config now s.ledger send taken observation }
  /-- The pass is over, or its process died. -/
  | stop (w : Nat) {s} : Step config s (.pass w) (s.setPhase w .idle)

/-- The ledger as the migrations leave it: every row open, and those carried
over without signer and nonce. -/
def system (signed : Signed) (config : SubmitterConfig) : System (State signed) Action where
  initial s :=
    (∀ r ∈ s.ledger.sends, r.settlement = none ∧ r.signer = none ∧ r.nonce = none) ∧
      s.deepest = atDepth config s.view.head ∧ s.finalized = s.view.finalized ∧
      ∀ w, s.phase w = .idle
  step := Step config

/-- A mined send whose block is permanent is still open or in the gas ledger,
and one whose nonce was taken by another is not mined at all. -/
structure NoGasLost (config : SubmitterConfig) (s : State signed) : Prop where
  accounted : ∀ r ∈ s.ledger.sends, r.chainId = config.chainId →
    ∀ n : Nat, (n : Int) ≤ s.permanent config → r.txHash ∈ s.view.blocks n →
      r.settlement = none ∨ ∃ g ∈ s.ledger.spend, g.key = r.key
  consumed_unmined : ∀ r ∈ s.ledger.sends, r.chainId = config.chainId →
    ∀ settlement ∈ r.settlement, settlement.reason = .nonceConsumed → ¬ s.view.Mined r.txHash

variable {config : SubmitterConfig} {s t : State signed}

/-! ## Blocks and nonces -/

theorem mem_minedUpTo {blocks : Nat → List Hash} {n : Nat} {h : Hash} :
    h ∈ minedUpTo blocks n ↔ ∃ m ≤ n, h ∈ blocks m := by
  simp [minedUpTo]

theorem mem_sentBy {blocks : Nat → List Hash} {signer : Address} {n : Nat} {h : Hash} :
    h ∈ sentBy signed blocks signer n ↔ (∃ m ≤ n, h ∈ blocks m) ∧ signed.signer h = signer := by
  rw [sentBy, List.mem_filter, mem_minedUpTo, decide_eq_true_eq]

theorem sentBy_congr {blocks blocks' : Nat → List Hash} {n : Nat}
    (h : ∀ m ≤ n, blocks m = blocks' m) (signer : Address) :
    sentBy signed blocks signer n = sentBy signed blocks' signer n := by
  unfold sentBy minedUpTo
  rw [List.flatMap_congr fun m hm => h m (Nat.lt_succ_iff.mp (List.mem_range.mp hm))]

/-- A nonce below the count is taken by a mined transaction. -/
theorem taken_below {view : View signed} {signer : Address} {n nonce : Nat}
    (below : nonce < view.confirmedNonce signer n) :
    ∃ h m, m ≤ n ∧ h ∈ view.blocks m ∧ signed.signer h = signer ∧ signed.nonce h = nonce := by
  have counted : nonce ∈ (sentBy signed view.blocks signer n).map signed.nonce := by
    rw [view.nonces]
    exact List.mem_range.mpr below
  obtain ⟨h, sent, rfl⟩ := List.mem_map.mp counted
  obtain ⟨⟨m, hm, mined⟩, rfl⟩ := mem_sentBy.mp sent
  exact ⟨h, m, hm, mined, rfl, rfl⟩

/-- One transaction per signer and nonce is mined. -/
theorem mined_unique {view : View signed} {h h' : Hash} (mined : view.Mined h)
    (mined' : view.Mined h') (signer : signed.signer h = signed.signer h')
    (nonce : signed.nonce h = signed.nonce h') : h = h' := by
  obtain ⟨m, hm⟩ := mined
  obtain ⟨m', hm'⟩ := mined'
  have distinct :
      ((sentBy signed view.blocks (signed.signer h') (max m m')).map signed.nonce).Nodup := by
    rw [view.nonces]
    exact List.nodup_range
  exact List.inj_on_of_nodup_map distinct
    (mem_sentBy.mpr ⟨⟨m, le_max_left _ _, hm⟩, signer⟩)
    (mem_sentBy.mpr ⟨⟨m', le_max_right _ _, hm'⟩, rfl⟩) nonce

/-! ## What holds of every run -/

/-- Another transaction with its signer and nonce stands in a permanent block. -/
def Displaced (config : SubmitterConfig) (s : State signed) (txHash : Hash) : Prop :=
  ∃ h, h ≠ txHash ∧ signed.signer h = signed.signer txHash ∧
    signed.nonce h = signed.nonce txHash ∧
    ∃ n : Nat, (n : Int) ≤ s.permanent config ∧ h ∈ s.view.blocks n

theorem Displaced.unmined {txHash : Hash} (displaced : Displaced config s txHash) :
    ¬ s.view.Mined txHash := by
  obtain ⟨h, other, signer, nonce, n, -, mined⟩ := displaced
  exact fun same => other (mined_unique ⟨n, mined⟩ same signer nonce)

/-- The recorded signer and nonce are those the hash commits to. -/
def SendOk (signed : Signed) (send : AnchorSend) : Prop :=
  ∀ signer nonce, send.signer = some signer → send.nonce = some nonce →
    signed.signer send.txHash = signer ∧ signed.nonce send.txHash = nonce

/-- A count of the pass: read at its permanent block, which still holds it. -/
def CountOk (s : State signed) (depthBlock : Option Int) (signer : Address) (taken : Nat) : Prop :=
  ∃ block, depthBlock = some block ∧ 0 ≤ block ∧
    taken = s.view.confirmedNonce signer block.toNat

structure ReadsOk (config : SubmitterConfig) (s : State signed) (depthBlock : Option Int)
    (nonces : List (Address × Nat)) : Prop where
  depth : ∀ block ∈ depthBlock, block ≤ s.permanent config
  counts : ∀ p ∈ nonces, CountOk s depthBlock p.1 p.2

/-- What a pass may rely on at each of its points. -/
def PassOk (config : SubmitterConfig) (s : State signed) : Phase → Prop
  | .idle => True
  | .selected sends => ∀ r ∈ sends, SendOk signed r
  | .headRead depth sends => depth ≤ s.deepest ∧ ∀ r ∈ sends, SendOk signed r
  | .ready depthBlock nonces sends =>
    ReadsOk config s depthBlock nonces ∧ ∀ r ∈ sends, SendOk signed r
  | .nonceRead depthBlock nonces send taken rest =>
    ReadsOk config s depthBlock nonces ∧ (∀ r ∈ send :: rest, SendOk signed r) ∧
      ∀ k ∈ taken, ∃ signer ∈ send.signer, CountOk s depthBlock signer k
  | .observed depthBlock nonces send taken observation rest =>
    ReadsOk config s depthBlock nonces ∧ (∀ r ∈ rest, SendOk signed r) ∧
      ((∀ receipt, observation ≠ .receipt receipt) →
        ∀ k ∈ taken, ∀ nonce ∈ send.nonce, nonce < k → Displaced config s send.txHash)

/-- A settled row's reason is true: its cost is in the gas ledger, or another
transaction has its nonce for good. -/
structure RowOk (config : SubmitterConfig) (s : State signed) (r : AnchorSend) : Prop where
  identity : SendOk signed r
  settled : ∀ settlement ∈ r.settlement,
    match settlement.reason with
    | .receipt => ∃ g ∈ s.ledger.spend, g.key = r.key
    | .nonceConsumed => Displaced config s r.txHash
    | .operator => False

structure Invariant (config : SubmitterConfig) (s : State signed) : Prop where
  deepest : atDepth config s.view.head ≤ s.deepest
  finalized : s.view.finalized ≤ s.finalized
  rows : ∀ r ∈ s.ledger.sends, r.chainId = config.chainId → RowOk config s r
  passes : ∀ w, PassOk config s (s.phase w)

/-! ## What later states keep -/

/-- Permanent blocks, costs and settlements stay. -/
structure Later (config : SubmitterConfig) (s t : State signed) : Prop where
  deepest : s.deepest ≤ t.deepest
  permanent : s.permanent config ≤ t.permanent config
  blocks : ∀ n : Nat, (n : Int) ≤ s.permanent config → t.view.blocks n = s.view.blocks n
  spend : ∀ g ∈ s.ledger.spend, g ∈ t.ledger.spend
  settled : ∀ r ∈ s.ledger.sends, ∀ x, r.settlement = some x →
    ∃ r' ∈ t.ledger.sends, r'.key = r.key ∧ r'.settlement = some x

theorem Later.refl (s : State signed) : Later config s s where
  deepest := le_rfl
  permanent := le_rfl
  blocks _ _ := rfl
  spend _ h := h
  settled r hr _ h := ⟨r, hr, rfl, h⟩

theorem Later.trans {u : State signed} (first : Later config s t) (second : Later config t u) :
    Later config s u where
  deepest := first.deepest.trans second.deepest
  permanent := first.permanent.trans second.permanent
  blocks n h := (second.blocks n (h.trans first.permanent)).trans (first.blocks n h)
  spend g h := second.spend g (first.spend g h)
  settled r hr x h := by
    obtain ⟨r', hr', key, h'⟩ := first.settled r hr x h
    obtain ⟨r'', hr'', key', h''⟩ := second.settled r' hr' x h'
    exact ⟨r'', hr'', key'.trans key, h''⟩

theorem Displaced.later {txHash : Hash} (h : Displaced config s txHash)
    (later : Later config s t) : Displaced config t txHash := by
  obtain ⟨h, other, signer, nonce, n, permanent, mined⟩ := h
  refine ⟨h, other, signer, nonce, n, permanent.trans later.permanent, ?_⟩
  rw [later.blocks n permanent]
  exact mined

/-- A count at a permanent block is the same in every later view. -/
theorem confirmedNonce_later (later : Later config s t) {block : Int}
    (permanent : block ≤ s.permanent config) (nonneg : 0 ≤ block) (signer : Address) :
    t.view.confirmedNonce signer block.toNat = s.view.confirmedNonce signer block.toNat := by
  unfold View.confirmedNonce
  rw [sentBy_congr (fun m hm => later.blocks m _) signer]
  omega

theorem CountOk.later {depthBlock : Option Int} {signer : Address} {taken : Nat}
    (h : CountOk s depthBlock signer taken) (later : Later config s t)
    (depth : ∀ block ∈ depthBlock, block ≤ s.permanent config) :
    CountOk t depthBlock signer taken := by
  obtain ⟨block, rfl, nonneg, rfl⟩ := h
  exact ⟨block, rfl, nonneg, (confirmedNonce_later later (depth block rfl) nonneg signer).symm⟩

theorem ReadsOk.later {depthBlock : Option Int} {nonces : List (Address × Nat)}
    (h : ReadsOk config s depthBlock nonces) (later : Later config s t) :
    ReadsOk config t depthBlock nonces where
  depth block hb := (h.depth block hb).trans later.permanent
  counts p hp := (h.counts p hp).later later h.depth

theorem PassOk.later {phase : Phase} (h : PassOk config s phase) (later : Later config s t) :
    PassOk config t phase := by
  cases phase with
  | idle => trivial
  | selected sends => exact h
  | headRead depth sends => exact ⟨h.1.trans later.deepest, h.2⟩
  | ready depthBlock nonces sends => exact ⟨h.1.later later, h.2⟩
  | nonceRead depthBlock nonces send taken rest =>
    refine ⟨h.1.later later, h.2.1, fun k hk => ?_⟩
    obtain ⟨signer, hs, count⟩ := h.2.2 k hk
    exact ⟨signer, hs, count.later later h.1.depth⟩
  | observed depthBlock nonces send taken observation rest =>
    exact ⟨h.1.later later, h.2.1, fun hidden k hk nonce hn below =>
      (h.2.2 hidden k hk nonce hn below).later later⟩

theorem RowOk.later {r : AnchorSend} (h : RowOk config s r) (later : Later config s t) :
    RowOk config t r where
  identity := h.identity
  settled settlement hs := by
    have before := h.settled settlement hs
    revert before
    cases settlement.reason with
    | receipt => exact fun ⟨g, hg, key⟩ => ⟨g, later.spend g hg, key⟩
    | nonceConsumed => exact fun displaced => displaced.later later
    | operator => exact id

/-! ### The ledger operations -/

theorem settled_settle {ledger : SendLedger} {now : Timestamp} {chainId : Nat} {txHash : Hash}
    {reason : SettledReason} {r : AnchorSend} {x : Settlement} (hr : r ∈ ledger.sends)
    (h : r.settlement = some x) :
    r ∈ (ledger.settle now chainId txHash reason).sends :=
  mem_settle.mpr ⟨r, hr, Or.inr ⟨fun _ => by rw [h]; nofun, rfl⟩⟩

theorem settled_stampChecked {ledger : SendLedger} (now : Timestamp) (chainId : Nat)
    (txHash : Hash) {r : AnchorSend} (hr : r ∈ ledger.sends) :
    ∃ r' ∈ (ledger.stampChecked now chainId txHash).sends,
      r'.key = r.key ∧ r'.settlement = r.settlement := by
  refine ⟨_, Table.mem_update_of_mem (AnchorSend.checked_key now) hr, ?_⟩
  split
  · exact ⟨rfl, rfl⟩
  · exact ⟨rfl, rfl⟩

/-- A step on the ledger alone, by one of its operations. -/
theorem Later.of_ledger {phase : Nat → Phase} {ledger : SendLedger}
    (spend : ∀ g ∈ s.ledger.spend, g ∈ ledger.spend)
    (settled : ∀ r ∈ s.ledger.sends, ∀ x, r.settlement = some x →
      ∃ r' ∈ ledger.sends, r'.key = r.key ∧ r'.settlement = some x) :
    Later config s { s with ledger := ledger, phase := phase } where
  deepest := le_rfl
  permanent := le_rfl
  blocks _ _ := rfl
  spend := spend
  settled := settled

theorem Later.recordReceipt {phase : Nat → Phase} (now : Timestamp) (txHash : Hash)
    (transactionId tenantId : Nat) (receipt : Receipt) :
    Later config s
      { s with
        ledger := s.ledger.recordReceipt now config.chainId txHash transactionId tenantId receipt
        phase := phase } :=
  .of_ledger (fun _ h => Table.mem_insertIfAbsent_of_mem h)
    fun r hr _ h => ⟨r, settled_settle hr h, rfl, h⟩

theorem Later.stampChecked {phase : Nat → Phase} (now : Timestamp) (txHash : Hash) :
    Later config s
      { s with
        ledger := s.ledger.stampChecked now config.chainId txHash
        phase := phase } :=
  .of_ledger (fun _ h => h) fun r hr x h => by
    obtain ⟨r', hr', key, same⟩ := settled_stampChecked now config.chainId txHash hr
    exact ⟨r', hr', key, same.trans h⟩

theorem Later.settleSend {phase : Nat → Phase} (now : Timestamp) (send : AnchorSend)
    (taken : Option Nat) (observation : Observation) :
    Later config s
      { s with
        ledger := settleSend config now s.ledger send taken observation
        phase := phase } := by
  unfold SendSettlement.settleSend
  split
  · exact .recordReceipt ..
  · split
    · exact .of_ledger (fun _ h => h) fun r hr _ h => ⟨r, settled_settle hr h, rfl, h⟩
    · exact .stampChecked ..

theorem Later.setPhase (w : Nat) (phase : Phase) : Later config s (s.setPhase w phase) :=
  .of_ledger (fun _ h => h) fun r hr _ h => ⟨r, hr, rfl, h⟩

theorem Later.of_step {action : Action} (step : Step config s action t) :
    Later config s t := by
  cases step with
  | evolve view permanent =>
    refine ⟨le_max_left _ _, ?_, permanent, fun _ h => h, fun r hr _ h => ⟨r, hr, rfl, h⟩⟩
    unfold State.permanent
    split
    · exact le_max_left _ _
    · dsimp only
      omega
  | record => exact .of_ledger (fun _ h => h) fun r hr _ h =>
      ⟨r, Table.mem_insertIfAbsent_of_mem hr, rfl, h⟩
  | receipt => exact .recordReceipt ..
  | failObserve => exact .stampChecked ..
  | settle => exact .settleSend ..
  | _ => exact .setPhase ..

/-! ## One step -/

theorem mem_openSends {now : Timestamp} {ledger : SendLedger} {r : AnchorSend}
    (h : r ∈ openSends config now ledger) :
    r ∈ ledger.sends ∧ r.chainId = config.chainId := by
  have selected := (List.perm_insertionSort sendOrder _).mem_iff.mp (List.mem_of_mem_take h)
  obtain ⟨present, chosen⟩ := List.mem_filter.mp selected
  exact ⟨present, (of_decide_eq_true chosen).1⟩

theorem nonceQuery_eq_some {depthBlock : Option Int} {send : AnchorSend} {signer : Address}
    {block : Nat} (h : nonceQuery depthBlock send = some (signer, block)) :
    signer ∈ send.signer ∧ ∃ depth, depthBlock = some depth ∧ 0 ≤ depth ∧ block = depth.toNat := by
  unfold nonceQuery at h
  split at h
  next signer' depth _ bySigner =>
    split at h
    next nonneg =>
      cases h
      exact ⟨bySigner, depth, rfl, nonneg, rfl⟩
    next => cases h
  next => cases h

theorem mem_of_lookup {nonces : List (Address × Nat)} {signer : Address} {taken : Nat}
    (h : nonces.lookup signer = some taken) : (signer, taken) ∈ nonces := by
  obtain ⟨before, after, rfl, -⟩ := List.lookup_eq_some_iff.mp h
  simp

theorem rows_recordReceipt (inv : Invariant config s) {phase : Nat → Phase} (now : Timestamp)
    (txHash : Hash) (transactionId tenantId : Nat) (receipt : Receipt) {r : AnchorSend}
    (hr : r ∈ (s.ledger.recordReceipt now config.chainId txHash transactionId tenantId
      receipt).sends) (onChain : r.chainId = config.chainId) :
    RowOk config
      { s with
        ledger := s.ledger.recordReceipt now config.chainId txHash transactionId tenantId receipt
        phase := phase } r := by
  obtain ⟨r', hr', ⟨key, -, rfl⟩ | ⟨-, rfl⟩⟩ := mem_settle.mp hr
  · refine ⟨(inv.rows r' hr' onChain).identity, ?_⟩
    rintro settlement ⟨⟩
    obtain ⟨g, hg, same⟩ := Table.exists_key_insertIfAbsent s.ledger.spend
      ⟨config.chainId, txHash, transactionId, tenantId, receipt.gasUsed,
        receipt.effectiveGasPrice, receipt.l1Fee, now⟩
    exact ⟨g, hg, same.trans key.symm⟩
  · exact (inv.rows r hr' onChain).later (.recordReceipt ..)

theorem rows_stampChecked (inv : Invariant config s) {phase : Nat → Phase} (now : Timestamp)
    (txHash : Hash) {r : AnchorSend}
    (hr : r ∈ (s.ledger.stampChecked now config.chainId txHash).sends)
    (onChain : r.chainId = config.chainId) :
    RowOk config
      { s with
        ledger := s.ledger.stampChecked now config.chainId txHash
        phase := phase } r := by
  obtain ⟨r', hr', rfl | rfl⟩ := mem_stampChecked hr
  · exact (inv.rows r hr' onChain).later (.stampChecked ..)
  · have before := (inv.rows r' hr' onChain).later (t := { s with
      ledger := s.ledger.stampChecked now config.chainId txHash
      phase := phase }) (.stampChecked ..)
    exact ⟨before.identity, before.settled⟩

/-- What `settleSend` does to a row is right when a nonce counted past the send
means that another transaction displaced it. -/
theorem rows_settleSend (inv : Invariant config s) {phase : Nat → Phase} (now : Timestamp)
    {send : AnchorSend} {taken : Option Nat} {observation : Observation}
    (displaced : (∀ receipt, observation ≠ .receipt receipt) →
      ∀ k ∈ taken, ∀ nonce ∈ send.nonce, nonce < k → Displaced config s send.txHash)
    {r : AnchorSend} (hr : r ∈ (settleSend config now s.ledger send taken observation).sends)
    (onChain : r.chainId = config.chainId) :
    RowOk config
      { s with
        ledger := settleSend config now s.ledger send taken observation
        phase := phase } r := by
  have later : Later config s { s with
      ledger := settleSend config now s.ledger send taken observation
      phase := phase } := .settleSend ..
  revert later hr
  unfold settleSend
  split
  · exact fun hr _ => rows_recordReceipt inv now _ _ _ _ hr onChain
  next hidden =>
    split
    next consumed =>
      intro hr later
      obtain ⟨k, hk, nonce, hn, below⟩ := consumed
      obtain ⟨r', hr', ⟨key, -, rfl⟩ | ⟨-, rfl⟩⟩ := mem_settle.mp hr
      · refine ⟨(inv.rows r' hr' onChain).identity, ?_⟩
        rintro settlement ⟨⟩
        have here : r'.txHash = send.txHash := (Prod.mk.inj key).2
        have gone := (displaced hidden k hk nonce hn below).later later
        rw [← here] at gone
        exact gone
      · exact (inv.rows r hr' onChain).later later
    next => exact fun hr _ => rows_stampChecked inv now _ hr onChain

/-- Moving one worker to a point whose reliances hold. -/
theorem passes_setPhase (inv : Invariant config s) {w : Nat} {phase : Phase}
    (h : PassOk config s phase) (v : Nat) :
    PassOk config s ((s.setPhase w phase).phase v) := by
  simp only [State.setPhase, Function.update_apply]
  split
  · exact h
  · exact inv.passes v

theorem Invariant.setPhase (inv : Invariant config s) {w : Nat} {phase : Phase}
    (h : PassOk config s phase) : Invariant config (s.setPhase w phase) where
  deepest := inv.deepest
  finalized := inv.finalized
  rows r hr onChain := (inv.rows r hr onChain).later (.setPhase w phase)
  passes v := (passes_setPhase inv h v).later (.setPhase w phase)

/-- Read before the receipt lookup, a count past the send's nonce proves, when
the lookup shows no receipt, that another transaction holds the nonce. -/
theorem displaced_of_read {depthBlock : Option Int} {send : AnchorSend} {k nonce : Nat}
    {signer : Address} (depth : ∀ block ∈ depthBlock, block ≤ s.permanent config)
    (identity : SendOk signed send) (bySigner : signer ∈ send.signer)
    (count : CountOk s depthBlock signer k) (atNonce : nonce ∈ send.nonce) (below : nonce < k)
    (unmined : ¬ s.view.Mined send.txHash) : Displaced config s send.txHash := by
  obtain ⟨block, rfl, nonneg, rfl⟩ := count
  obtain ⟨h, m, hm, mined, signer', nonce'⟩ := taken_below below
  obtain ⟨signerOf, nonceOf⟩ := identity signer nonce bySigner atNonce
  refine ⟨h, ?_, signer'.trans signerOf.symm, nonce'.trans nonceOf.symm, m, ?_, mined⟩
  · rintro rfl
    exact unmined ⟨m, mined⟩
  · have := depth block rfl
    omega

theorem atDepth_permanent (inv : Invariant config s) (noTag : config.finalityTag = .none) :
    atDepth config s.view.head ≤ s.permanent config := by
  rw [State.permanent, if_pos noTag]
  exact inv.deepest

theorem Invariant.step (inv : Invariant config s) {action : Action}
    (step : Step config s action t) : Invariant config t := by
  have later := Later.of_step step
  cases step with
  | evolve view permanent =>
    exact ⟨le_max_right _ _, le_max_right _ _, fun r hr onChain => (inv.rows r hr onChain).later later,
      fun w => (inv.passes w).later later⟩
  | record prepared transactionId tenantId l1FeeBound sentAt bySigner atNonce =>
    refine ⟨inv.deepest, inv.finalized, fun r hr onChain => ?_, fun w => (inv.passes w).later later⟩
    obtain old | ⟨rfl, -⟩ := Table.mem_insertIfAbsent.mp hr
    · exact (inv.rows r old onChain).later later
    · refine ⟨?_, nofun⟩
      rintro signer nonce ⟨⟩ ⟨⟩
      exact ⟨bySigner.symm, atNonce.symm⟩
  | receipt now txHash transactionId tenantId receipt =>
    exact ⟨inv.deepest, inv.finalized,
      fun r hr onChain => rows_recordReceipt inv now _ _ _ _ hr onChain,
      fun w => (inv.passes w).later later⟩
  | select w now idle =>
    refine inv.setPhase fun r hr => ?_
    obtain ⟨present, onChain⟩ := mem_openSends hr
    exact (inv.rows r present onChain).identity
  | @readHead w _ sends selected =>
    have sendsOk : PassOk config s (.selected sends) := selected ▸ inv.passes w
    refine inv.setPhase ?_
    split
    next noTag =>
      refine ⟨⟨?_, nofun⟩, sendsOk⟩
      rintro block ⟨⟩
      exact atDepth_permanent inv noTag
    next => exact ⟨inv.deepest, sendsOk⟩
  | @readFinalized w _ depth sends headRead =>
    have pass : PassOk config s (.headRead depth sends) := headRead ▸ inv.passes w
    refine inv.setPhase ⟨⟨?_, nofun⟩, pass.2⟩
    rintro block ⟨⟩
    have := pass.1
    have := inv.finalized
    unfold State.permanent
    split <;> omega
  | @failDepth w _ sends reading =>
    have sendsOk : ∀ r ∈ sends, SendOk signed r := by
      have pass := inv.passes w
      rcases reading with selected | ⟨depth, headRead⟩
      · rw [selected] at pass
        exact pass
      · rw [headRead] at pass
        exact pass.2
    exact inv.setPhase ⟨⟨nofun, nofun⟩, sendsOk⟩
  | @skipNonce w _ depthBlock nonces send rest ready =>
    have pass : PassOk config s (.ready depthBlock nonces (send :: rest)) := ready ▸ inv.passes w
    exact inv.setPhase ⟨pass.1, pass.2, nofun⟩
  | @cachedNonce w _ depthBlock nonces send rest signer block taken ready query cached =>
    have pass : PassOk config s (.ready depthBlock nonces (send :: rest)) := ready ▸ inv.passes w
    refine inv.setPhase ⟨pass.1, pass.2, ?_⟩
    rintro k ⟨⟩
    exact ⟨signer, (nonceQuery_eq_some query).1, pass.1.counts _ (mem_of_lookup cached)⟩
  | @readNonce w _ depthBlock nonces send rest signer block ready query uncached =>
    have pass : PassOk config s (.ready depthBlock nonces (send :: rest)) := ready ▸ inv.passes w
    obtain ⟨bySigner, depth, atBlock, nonneg, rfl⟩ := nonceQuery_eq_some query
    have count : CountOk s depthBlock signer (s.view.confirmedNonce signer depth.toNat) :=
      ⟨depth, atBlock, nonneg, rfl⟩
    refine inv.setPhase ⟨⟨pass.1.depth, ?_⟩, pass.2, ?_⟩
    · intro p hp
      rcases List.mem_cons.mp hp with rfl | old
      · exact count
      · exact pass.1.counts p old
    · rintro k ⟨⟩
      exact ⟨signer, bySigner, count⟩
  | @observe w observation _ depthBlock nonces send taken rest read shown =>
    have pass : PassOk config s (.nonceRead depthBlock nonces send taken rest) :=
      read ▸ inv.passes w
    obtain ⟨reads, sendsOk, counted⟩ := pass
    refine inv.setPhase ⟨reads, fun r hr => sendsOk r (List.mem_cons_of_mem _ hr), ?_⟩
    intro hidden k hk nonce hn below
    obtain ⟨signer, bySigner, count⟩ := counted k hk
    refine displaced_of_read reads.depth (sendsOk send List.mem_cons_self) bySigner count hn below
      fun mined => ?_
    obtain ⟨receipt, seen⟩ := shown mined
    exact hidden receipt seen
  | @failObserve w now _ depthBlock nonces send taken rest read =>
    have pass : PassOk config s (.nonceRead depthBlock nonces send taken rest) :=
      read ▸ inv.passes w
    have next : PassOk config s (.ready depthBlock nonces rest) :=
      ⟨pass.1, fun r hr => pass.2.1 r (List.mem_cons_of_mem _ hr)⟩
    exact ⟨inv.deepest, inv.finalized, fun r hr onChain => rows_stampChecked inv now _ hr onChain,
      fun v => (passes_setPhase inv next v).later later⟩
  | @settle w now _ depthBlock nonces send taken observation rest observed =>
    have pass : PassOk config s (.observed depthBlock nonces send taken observation rest) :=
      observed ▸ inv.passes w
    have next : PassOk config s (.ready depthBlock nonces rest) := ⟨pass.1, pass.2.1⟩
    exact ⟨inv.deepest, inv.finalized,
      fun r hr onChain => rows_settleSend inv now pass.2.2 hr onChain,
      fun v => (passes_setPhase inv next v).later later⟩
  | stop w => exact inv.setPhase trivial

/-! ## Every run -/

theorem Invariant.noGasLost (inv : Invariant config s) : NoGasLost config s where
  accounted r hr onChain n _ mined := by
    have row := inv.rows r hr onChain
    cases settlement : r.settlement with
    | none => exact Or.inl rfl
    | some x =>
      right
      have settled := row.settled x settlement
      revert settled
      cases x.reason with
      | receipt => exact id
      | nonceConsumed => exact fun displaced => absurd ⟨n, mined⟩ displaced.unmined
      | operator => exact False.elim
  consumed_unmined r hr onChain x hx consumed := by
    have settled := (inv.rows r hr onChain).settled x hx
    rw [consumed] at settled
    exact settled.unmined

theorem reachable_invariant (reached : (system signed config).Reachable s) :
    Invariant config s := by
  refine reached.invariant ?_ fun u action v inv step => inv.step step
  rintro s₀ ⟨fresh, deepest, finalized, idle⟩
  refine ⟨deepest.ge, finalized.ge, fun r hr _ => ⟨?_, ?_⟩, fun w => ?_⟩
  · intro signer nonce bySigner
    rw [(fresh r hr).2.1] at bySigner
    cases bySigner
  · intro x hx
    rw [(fresh r hr).1] at hx
    cases hx
  · rw [idle w]
    trivial

/-- In every state of every run no mined send's gas is lost, and a send settled
because its nonce was consumed is mined neither then nor at any later point. -/
theorem no_gas_lost (signed : Signed) (config : SubmitterConfig) (s : State signed)
    (reached : (system signed config).Reachable s) :
    NoGasLost config s ∧
      ∀ labels t, (system signed config).Run s labels t →
        ∀ r ∈ s.ledger.sends, r.chainId = config.chainId →
          ∀ x ∈ r.settlement, x.reason = .nonceConsumed → ¬ t.view.Mined r.txHash := by
  refine ⟨(reachable_invariant reached).noGasLost, fun labels t run r hr onChain x hx consumed => ?_⟩
  have later : Later config s t := run.relates (I := fun _ => True) trivial (fun _ _ _ _ _ => trivial)
    Later.refl (fun _ _ _ => Later.trans) fun _ _ _ _ step => Later.of_step step
  obtain ⟨r', hr', key, hx'⟩ := later.settled r hr x hx
  have same := Prod.mk.inj key
  have unmined := (reachable_invariant (reached.run run)).noGasLost.consumed_unmined r' hr'
    (same.1.trans onChain) x hx' consumed
  rw [← same.2]
  exact unmined

/-! ## A replaced send -/

/-- The replaced send 0xa and its replacement 0xb share signer and nonce. -/
def replacing : Signed := ⟨fun _ => 0x5161, fun _ => 0⟩

def minedInFive (n : Nat) : List Hash := if n = 5 then [0xb] else []

theorem minedUpTo_five (n : Nat) : minedUpTo minedInFive n = if 5 ≤ n then [0xb] else [] := by
  induction n with
  | zero => rfl
  | succ n ih =>
    unfold minedUpTo at ih ⊢
    rw [List.range_succ, List.flatMap_append, ih, List.flatMap_singleton]
    unfold minedInFive
    split <;> split <;> split <;> first | rfl | omega

def replacedView : View replacing where
  blocks := minedInFive
  head := 30
  finalized := 20
  beyond_head n h := if_neg (by omega)
  nonces signer n := by
    unfold sentBy
    rw [minedUpTo_five]
    by_cases mined : 5 ≤ n
    · by_cases own : 0x5161 = signer
      · simp [mined, own, replacing]
      · simp [mined, own, replacing]
    · simp [mined]

def replacedSend : PreparedSend := ⟨0xa, 0x5161, 0, 200000, 100000000000⟩

def replacedStart : State replacing where
  ledger := ⟨Table.empty, Table.empty⟩
  view := replacedView
  deepest := 19
  finalized := 20
  phase _ := .idle

/-- The replaced send is settled as consumed, and was never mined. -/
theorem no_gas_lost_replaced :
    ∃ s : State replacing, ∃ r ∈ s.ledger.sends,
      r.settlement = some ⟨40, .nonceConsumed⟩ ∧
        NoGasLost (localConfig 60000000000000000) s ∧ ¬ s.view.Mined r.txHash := by
  let config := localConfig 60000000000000000
  have r₀ : (system replacing config).Reachable replacedStart :=
    .of_initial ⟨fun r h => absurd h (Table.not_mem_empty r), rfl, rfl, fun _ => rfl⟩
  have r₁ := r₀.step (.record replacedSend 1 1 0 10 rfl rfl)
  have r₂ := r₁.step (.select 1 30 rfl)
  have r₃ := r₂.step (.readHead 1 rfl)
  have r₄ := r₃.step (.readNonce 1 rfl rfl rfl)
  have unmined : ¬ replacedView.Mined 0xa := by
    rintro ⟨n, mined⟩
    change 0xa ∈ (if n = 5 then [0xb] else []) at mined
    split at mined <;> simp at mined
  have r₅ := r₄.step (.observe 1 .unknown rfl fun mined => absurd mined unmined)
  have r₆ := r₅.step (.settle 1 40 rfl)
  have safe := no_gas_lost replacing config _ r₆
  refine ⟨_, (sendRecord config 1 1 replacedSend 0 10).settled 40 .nonceConsumed, ?_, rfl, safe.1,
    unmined⟩
  exact List.mem_singleton_self _

end MpcRegistry.Worker.SendSettlement
