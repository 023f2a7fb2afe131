import MpcRegistry.Library.Outcome

/-!
# RegistryStatusReceiver

Source: contracts/src/RegistryStatusReceiver.sol:14-131. Calldata is a list of
octets; `calldataload` reads a big-endian word and `abi.decode` checks that
each short field fits its type, as the static nine-word layout prescribes. The
subtraction in the time guard is the checked one of Solidity 0.8, with its
panic as an outcome of its own.
-/
namespace MpcRegistry.Contracts.StatusReceiver
open Library.Outcome

abbrev Bytes := List (Fin 256)
abbrev Bytes32 := BitVec 256
abbrev Address := BitVec 160

structure Report where
  chainId : BitVec 256
  receiver : Address
  recordId : Bytes32
  registryVersion : BitVec 64
  contentHash : Bytes32
  observedAt : BitVec 64
  validUntil : BitVec 64
  sequence : BitVec 64
  status : BitVec 8
  deriving DecidableEq, Repr

def Report.zero : Report := ⟨0, 0, 0, 0, 0, 0, 0, 0, 0⟩

def CURRENT : BitVec 8 := 1
def NEEDS_RE_REVIEW : BitVec 8 := 2
def REVOKED : BitVec 8 := 3
def EXPIRED : BitVec 8 := 4
def UNAVAILABLE : BitVec 8 := 5

inductive Revert where
  | invalidConfiguration | unauthorizedForwarder | invalidMetadata | unauthorizedWorkflow
  | invalidReport | invalidDestination | invalidReportTime | outOfOrderReport
  | versionRollback | contentHashConflict
  /-- `abi.decode` found a word outside its field's type. -/
  | abiDecode
  /-- Panic 0x11 of checked arithmetic. -/
  | arithmeticPanic
  deriving DecidableEq, Repr

structure Event where
  recordId : Bytes32
  registryVersion : BitVec 64
  contentHash : Bytes32
  sequence : BitVec 64
  status : BitVec 8
  observedAt : BitVec 64
  validUntil : BitVec 64
  deriving DecidableEq, Repr

def oneDay : Nat := 86400

/-- The immutables, with the address and the chain the contract lives on. The
constructor's checks are fields. -/
structure Receiver where
  trustedForwarder : Address
  expectedWorkflowId : Bytes32
  expectedWorkflowOwner : Address
  maxReportTTL : BitVec 64
  self : Address
  chainId : BitVec 256
  forwarder_ne : trustedForwarder ≠ 0
  workflowId_ne : expectedWorkflowId ≠ 0
  workflowOwner_ne : expectedWorkflowOwner ≠ 0
  ttl_ne : maxReportTTL ≠ 0
  ttl_le : maxReportTTL.toNat ≤ oneDay

/-- The constructor, given the size of the forwarder's code. -/
def construct (self : Address) (chainId : BitVec 256) (forwarder : Address) (codeLength : Nat)
    (workflowId : Bytes32) (workflowOwner : Address) (maxTTL : BitVec 64) :
    Except Revert Receiver :=
  if h : forwarder = 0 ∨ codeLength = 0 ∨ workflowId = 0 ∨ workflowOwner = 0 ∨ maxTTL = 0 ∨
      oneDay < maxTTL.toNat then .error .invalidConfiguration
  else
    .ok {
      trustedForwarder := forwarder
      expectedWorkflowId := workflowId
      expectedWorkflowOwner := workflowOwner
      maxReportTTL := maxTTL
      self := self
      chainId := chainId
      forwarder_ne := fun e => h (.inl e)
      workflowId_ne := fun e => h (.inr (.inr (.inl e)))
      workflowOwner_ne := fun e => h (.inr (.inr (.inr (.inl e))))
      ttl_ne := fun e => h (.inr (.inr (.inr (.inr (.inl e)))))
      ttl_le := Nat.le_of_not_lt fun e => h (.inr (.inr (.inr (.inr (.inr e))))) }

/-- Big-endian value of a list of octets. -/
def beValue (data : Bytes) : Nat := data.foldl (fun acc octet => acc * 256 + octet.val) 0

/-- One word at an offset. Past the end calldata reads as other bytes of the
transaction; both callers below drop or never reach them. -/
def calldataload (data : Bytes) (offset : Nat) : BitVec 256 :=
  let window := (data.drop offset).take 32
  BitVec.ofNat 256 (beValue window * 256 ^ (32 - window.length))

/-- A word as a field of `width` bits; too large a value does not decode. -/
def decodeUint (width : Nat) (word : BitVec 256) : Except Revert (BitVec width) :=
  if word.toNat < 2 ^ width then .ok (word.setWidth width) else .error .abiDecode

/-- `abi.decode(report, (Report))` on exactly nine words. -/
def abiDecode (report : Bytes) : Except Revert Report := do
  let receiver ← decodeUint 160 (calldataload report 32)
  let registryVersion ← decodeUint 64 (calldataload report 96)
  let observedAt ← decodeUint 64 (calldataload report 160)
  let validUntil ← decodeUint 64 (calldataload report 192)
  let sequence ← decodeUint 64 (calldataload report 224)
  let status ← decodeUint 8 (calldataload report 256)
  .ok {
    chainId := calldataload report 0
    receiver := receiver
    recordId := calldataload report 64
    registryVersion := registryVersion
    contentHash := calldataload report 128
    observedAt := observedAt
    validUntil := validUntil
    sequence := sequence
    status := status }

/-- Checked `uint64` subtraction. -/
def checkedSub (a b : BitVec 64) : Except Revert (BitVec 64) :=
  if a.toNat < b.toNat then .error .arithmeticPanic else .ok (a - b)

/-- The mapping `_states`. -/
abbrev States := Bytes32 → Report

structure Call where
  sender : Address
  timestamp : BitVec 256
  metadata : Bytes
  report : Bytes
  deriving DecidableEq, Repr

section Functions

variable (r : Receiver) (states : States)

/-- Who delivered it, and for which workflow: the packed 62-byte identity is the
workflow id, ten bytes of name and the owner. -/
def authenticate (c : Call) : Except Revert Unit :=
  if c.sender ≠ r.trustedForwarder then .error .unauthorizedForwarder
  else if c.metadata.length ≠ 64 then .error .invalidMetadata
  else
    let workflowId := calldataload c.metadata 0
    let workflowOwner := ((calldataload c.metadata 42) >>> 96).setWidth 160
    if workflowId ≠ r.expectedWorkflowId ∨ workflowOwner ≠ r.expectedWorkflowOwner then
      .error .unauthorizedWorkflow
    else .ok ()

/-- The guards that look at the report alone and at the block. -/
def checkReport (timestamp : BitVec 256) (next : Report) : Except Revert Unit :=
  if next.chainId ≠ r.chainId ∨ next.receiver ≠ r.self then .error .invalidDestination
  else if next.recordId = 0 ∨ next.contentHash = 0 ∨ next.registryVersion = 0 ∨
      next.sequence = 0 ∨ next.status.toNat < CURRENT.toNat ∨
      UNAVAILABLE.toNat < next.status.toNat then .error .invalidReport
  else if timestamp.toNat < next.observedAt.toNat ∨ next.validUntil.toNat ≤ timestamp.toNat ∨
      next.validUntil.toNat ≤ next.observedAt.toNat then .error .invalidReportTime
  else do
    -- evaluated only after the three comparisons before it in the source's `||`
    let lifetime ← checkedSub next.validUntil next.observedAt
    if r.maxReportTTL.toNat < lifetime.toNat then .error .invalidReportTime else .ok ()

/-- The guards against the stored previous report. -/
def checkOrder (previous next : Report) : Except Revert Unit :=
  if next.sequence.toNat ≤ previous.sequence.toNat ∨
      next.observedAt.toNat < previous.observedAt.toNat then .error .outOfOrderReport
  else if next.registryVersion.toNat < previous.registryVersion.toNat then .error .versionRollback
  else if next.registryVersion = previous.registryVersion ∧
      next.contentHash ≠ previous.contentHash then .error .contentHashConflict
  else .ok ()

/-- `onReport`: the report it stores, under its own record id, and the event. -/
def onReport (c : Call) : Except Revert (Report × Event) := do
  authenticate r c
  if c.report.length ≠ 9 * 32 then .error .invalidReport
  else do
    let next ← abiDecode c.report
    checkReport r c.timestamp next
    checkOrder (states next.recordId) next
    .ok (next, {
      recordId := next.recordId
      registryVersion := next.registryVersion
      contentHash := next.contentHash
      sequence := next.sequence
      status := next.status
      observedAt := next.observedAt
      validUntil := next.validUntil })

def getState (recordId : Bytes32) : Report := states recordId

def isCurrent (recordId : Bytes32) (timestamp : BitVec 256) : Bool :=
  (states recordId).status = CURRENT ∧ timestamp.toNat < (states recordId).validUntil.toNat

/-- One transaction: an accepted report replaces its record, a revert nothing. -/
def execute (c : Call) : States :=
  match onReport r states c with
  | .ok (next, _) => Function.update states next.recordId next
  | .error _ => states

def executeAll (calls : List Call) : States := calls.foldl (execute r) states

end Functions

/-- Before the first report. -/
def deployed : States := fun _ => Report.zero

/-- What the guards on the report alone established. -/
structure Admitted (r : Receiver) (timestamp : BitVec 256) (next : Report) : Prop where
  chainId : next.chainId = r.chainId
  receiver : next.receiver = r.self
  recordId : next.recordId ≠ 0
  contentHash : next.contentHash ≠ 0
  registryVersion : next.registryVersion ≠ 0
  sequence : next.sequence ≠ 0
  status_ge : CURRENT.toNat ≤ next.status.toNat
  status_le : next.status.toNat ≤ UNAVAILABLE.toNat
  observed : next.observedAt.toNat ≤ timestamp.toNat
  valid : timestamp.toNat < next.validUntil.toNat
  lifetime : next.validUntil.toNat ≤ next.observedAt.toNat + r.maxReportTTL.toNat

/-- What the guards against the previous report established. -/
structure Follows (previous next : Report) : Prop where
  sequence : previous.sequence.toNat < next.sequence.toNat
  observedAt : previous.observedAt.toNat ≤ next.observedAt.toNat
  registryVersion : previous.registryVersion.toNat ≤ next.registryVersion.toNat
  contentHash : previous.registryVersion = next.registryVersion →
    previous.contentHash = next.contentHash

theorem checkedSub_ok {a b c : BitVec 64} (h : checkedSub a b = .ok c) :
    c.toNat + b.toNat = a.toNat := by
  obtain ⟨le, h⟩ := guard_ok.mp h
  cases h
  rw [BitVec.toNat_sub_of_le (BitVec.le_def.mpr (Nat.le_of_not_lt le))]
  omega

theorem checkReport_ok {r : Receiver} {timestamp : BitVec 256} {next : Report} {u : Unit}
    (h : checkReport r timestamp next = .ok u) : Admitted r timestamp next := by
  simp only [checkReport, guard_ok, not_or, ne_eq, not_not, bind_ok, Nat.not_lt, Nat.not_le] at h
  obtain ⟨⟨chainId, receiver⟩, ⟨recordId, contentHash, registryVersion, sequence, low, high⟩,
    ⟨observed, valid, _⟩, lifetime, difference, bound, -⟩ := h
  have sum := checkedSub_ok difference
  exact ⟨chainId, receiver, recordId, contentHash, registryVersion, sequence, low, high, observed,
    valid, by omega⟩

/-- The guards order the subtraction so that its panic is unreachable. -/
theorem checkReport_no_panic (r : Receiver) (timestamp : BitVec 256) (next : Report) :
    checkReport r timestamp next ≠ .error .arithmeticPanic := by
  unfold checkReport
  split
  · simp
  split
  · simp
  split
  · simp
  next order =>
    simp only [not_or, Nat.not_le] at order
    have fits : ¬ next.validUntil.toNat < next.observedAt.toNat := by omega
    rw [checkedSub, if_neg fits]
    simp only [bind, Except.bind]
    split <;> simp

theorem checkOrder_ok {previous next : Report} {u : Unit}
    (h : checkOrder previous next = .ok u) : Follows previous next := by
  simp only [checkOrder, guard_ok, not_or, not_and, ne_eq, not_not, Nat.not_lt, Nat.not_le] at h
  obtain ⟨⟨sequence, observedAt⟩, version, hash, -⟩ := h
  exact ⟨sequence, observedAt, version, fun same => (hash same.symm).symm⟩

/-- Inversion of an accepted report. -/
theorem onReport_ok {r : Receiver} {states : States} {c : Call} {next : Report} {event : Event}
    (h : onReport r states c = .ok (next, event)) :
    abiDecode c.report = .ok next ∧ Admitted r c.timestamp next ∧
      Follows (states next.recordId) next := by
  obtain ⟨_, -, h⟩ := bind_ok.mp h
  obtain ⟨-, h⟩ := guard_ok.mp h
  obtain ⟨decoded, decode, h⟩ := bind_ok.mp h
  obtain ⟨_, admitted, h⟩ := bind_ok.mp h
  obtain ⟨_, follows, h⟩ := bind_ok.mp h
  simp only [Except.ok.injEq, Prod.mk.injEq] at h
  obtain ⟨rfl, -⟩ := h
  exact ⟨decode, checkReport_ok admitted, checkOrder_ok follows⟩

/-- A later report of the same version cannot disagree even when others lie
between: versions only grow, so all of them share it. -/
theorem Follows.trans {a b c : Report} (h₁ : Follows a b) (h₂ : Follows b c) : Follows a c where
  sequence := Nat.lt_trans h₁.sequence h₂.sequence
  observedAt := Nat.le_trans h₁.observedAt h₂.observedAt
  registryVersion := Nat.le_trans h₁.registryVersion h₂.registryVersion
  contentHash := fun same => by
    have between : a.registryVersion = b.registryVersion := by
      apply BitVec.eq_of_toNat_eq
      have low := h₁.registryVersion
      have high := h₂.registryVersion
      rw [← same] at high
      omega
    rw [h₁.contentHash between, h₂.contentHash (between ▸ same)]

instance : Trans Follows Follows Follows := ⟨Follows.trans⟩

end MpcRegistry.Contracts.StatusReceiver
