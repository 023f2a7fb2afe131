import MpcRegistry.Contracts.StatusReceiver
import MpcRegistry.Cre.Protocol
import MpcRegistry.Library.BigEndian

/-!
# The report between workflow and receiver

Every report the workflow validates is the text form of one that the receiver's
`abi.decode` reads back, and passes every guard that looks at the report alone.
-/
namespace MpcRegistry.Cre
open Library Library.Outcome Ecma Canonical
open Contracts.StatusReceiver (Report Receiver Revert Call States abiDecode authenticate checkReport
  checkOrder onReport decodeUint calldataload beValue)

/-! ## Text and wire form -/

def addressText (address : BitVec 160) : Text := bytesToHex (BigEndian.bytes 20 address.toNat)

def wordText (word : BitVec 256) : Text := bytesToHex (BigEndian.bytes 32 word.toNat)

/-- The report of the contract as the workflow writes it. -/
def render (report : Report) : RegistryReport where
  chainId := decimalText report.chainId.toNat
  receiver := addressText report.receiver
  recordId := wordText report.recordId
  registryVersion := decimalText report.registryVersion.toNat
  contentHash := wordText report.contentHash
  observedAt := decimalText report.observedAt.toNat
  validUntil := decimalText report.validUntil.toNat
  sequence := decimalText report.sequence.toNat
  status := report.status.toNat

/-- The arguments viem is given for it. -/
def abiValues (report : Report) : AbiValues where
  chainId := report.chainId.toNat
  receiver := addressText report.receiver
  recordId := wordText report.recordId
  registryVersion := report.registryVersion.toNat
  contentHash := wordText report.contentHash
  observedAt := report.observedAt.toNat
  validUntil := report.validUntil.toNat
  sequence := report.sequence.toNat
  status := report.status.toNat

/-- The numbers in the nine words, in the order of the tuple. -/
def wordValues (report : Report) : List Nat :=
  [report.chainId.toNat, report.receiver.toNat, report.recordId.toNat,
    report.registryVersion.toNat, report.contentHash.toNat, report.observedAt.toNat,
    report.validUntil.toNat, report.sequence.toNat, report.status.toNat]

/-- The ABI encoding of the static tuple: nine words. -/
def abiEncode (report : Report) : Bytes :=
  ((wordValues report).map (BigEndian.bytes 32)).flatten

/-- What is relied on of viem: arguments of the nine types are encoded as the ABI says. -/
def EncodesAbi (encodeAbiParameters : AbiValues → Except Thrown Text) : Prop :=
  ∀ report, encodeAbiParameters (abiValues report) = .ok (bytesToHex (abiEncode report))

/-- The bytes as calldata. -/
def octets (bytes : Bytes) : Contracts.StatusReceiver.Bytes := bytes.map UInt8.toFin

/-! ## Decoding the encoding -/

theorem length_abiEncode (report : Report) : (abiEncode report).length = 288 := by
  simp [abiEncode, wordValues]

theorem beValue_octets (bytes : Bytes) : beValue (octets bytes) = BigEndian.value bytes := by
  simp [beValue, octets, BigEndian.value, List.foldl_map]

/-- The word at index `i` is read back as the number written there. -/
theorem calldataload_abiEncode (report : Report) {i : Nat} (hi : i < (wordValues report).length) :
    calldataload (octets (abiEncode report)) (32 * i) =
      BitVec.ofNat 256 ((wordValues report)[i]) := by
  have hwidth : ∀ word ∈ (wordValues report).map (BigEndian.bytes 32), word.length = 32 := by
    simp
  have hword := BigEndian.take_drop_flatten hwidth (i := i) (by simpa using hi)
  have hwindow : ((octets (abiEncode report)).drop (32 * i)).take 32 =
      octets (BigEndian.bytes 32 (wordValues report)[i]) := by
    rw [octets, ← List.map_drop, ← List.map_take, abiEncode, hword, List.getElem_map, octets]
  rw [calldataload, hwindow, beValue_octets, BigEndian.value_bytes]
  apply BitVec.eq_of_toNat_eq
  simp [octets]

theorem decodeUint_ofNat {width : Nat} (value : BitVec width) (hwidth : width ≤ 256) :
    decodeUint width (BitVec.ofNat 256 value.toNat) = .ok value := by
  have hlt := Nat.lt_of_lt_of_le value.isLt (Nat.pow_le_pow_right (by decide) hwidth)
  rw [decodeUint, BitVec.toNat_ofNat, Nat.mod_eq_of_lt hlt, if_pos value.isLt]
  congr 1
  apply BitVec.eq_of_toNat_eq
  simp [Nat.mod_eq_of_lt hlt]

theorem abiDecode_abiEncode (report : Report) :
    abiDecode (octets (abiEncode report)) = .ok report := by
  have hword := fun i (hi : i < 9) => calldataload_abiEncode report (i := i) hi
  have hchainId := hword 0 (by decide)
  have hreceiver := hword 1 (by decide)
  have hrecordId := hword 2 (by decide)
  have hversion := hword 3 (by decide)
  have hcontentHash := hword 4 (by decide)
  have hobservedAt := hword 5 (by decide)
  have hvalidUntil := hword 6 (by decide)
  have hsequence := hword 7 (by decide)
  have hstatus := hword 8 (by decide)
  simp only [wordValues, List.getElem_cons_zero, List.getElem_cons_succ, Nat.reduceMul]
    at hchainId hreceiver hrecordId hversion hcontentHash hobservedAt hvalidUntil hsequence hstatus
  simp only [abiDecode, hchainId, hreceiver, hrecordId, hversion, hcontentHash, hobservedAt,
    hvalidUntil, hsequence, hstatus, decodeUint_ofNat _ (show 160 ≤ 256 by decide),
    decodeUint_ofNat _ (show 64 ≤ 256 by decide), decodeUint_ofNat _ (show 8 ≤ 256 by decide)]
  simp [bind, Except.bind]

/-! ## Every validated report is rendered -/

/-- What is left of the schema once the texts are read. -/
structure FieldsInRange (report : Report) : Prop where
  registryVersion : report.registryVersion ≠ 0
  sequence : report.sequence ≠ 0
  status_ge : 1 ≤ report.status.toNat
  status_le : report.status.toNat ≤ 5

theorem exists_of_positiveUint {digits width : Nat} {text : Text}
    (h : positiveUint digits (2 ^ width - 1) text = true) :
    ∃ word : BitVec width, word ≠ 0 ∧ text = decimalText word.toNat := by
  simp only [positiveUint, Bool.and_eq_true] at h
  obtain ⟨⟨hdecimal, -⟩, hlimit⟩ := h
  obtain ⟨value, hpos, rfl⟩ := exists_decimalText hdecimal
  have hlt : value < 2 ^ width := by
    simp only [parseBigInt_decimalText, Option.any_some, decide_eq_true_eq] at hlimit
    have hcast : ((2 ^ width : Nat) : Int) = 2 ^ width := by norm_cast
    omega
  refine ⟨BitVec.ofNat width value, ?_, by rw [BitVec.toNat_ofNat, Nat.mod_eq_of_lt hlt]⟩
  intro hzero
  have hnat := congrArg BitVec.toNat hzero
  rw [BitVec.toNat_ofNat, Nat.mod_eq_of_lt hlt] at hnat
  exact absurd hnat (Nat.pos_iff_ne_zero.mp hpos)

theorem exists_of_positiveUint64 {text : Text} (h : positiveUint64 text = true) :
    ∃ word : BitVec 64, word ≠ 0 ∧ text = decimalText word.toNat :=
  exists_of_positiveUint h

/-- A lowercase hexadecimal text of `count` bytes is the text of a number. -/
theorem exists_of_hex {count width : Nat} {text : Text} (hwidth : 256 ^ count = 2 ^ width)
    (htake : text.take 2 = units "0x") (hlength : (text.drop 2).length = 2 * count)
    (hall : (text.drop 2).all isLowerHex = true) :
    ∃ word : BitVec width, text = bytesToHex (BigEndian.bytes count word.toNat) := by
  obtain ⟨bytes, hbytes, hdrop⟩ := exists_flatMap_hexPair count hlength hall
  have hlt : BigEndian.value bytes < 2 ^ width := hwidth ▸ hbytes ▸ BigEndian.value_lt bytes
  refine ⟨BitVec.ofNat width (BigEndian.value bytes), ?_⟩
  rw [BitVec.toNat_ofNat, Nat.mod_eq_of_lt hlt, ← hbytes, BigEndian.bytes_value, bytesToHex,
    ← htake, ← hdrop, List.take_append_drop]

theorem exists_of_hex32 {text : Text} (h : hex32 text = true) :
    ∃ word : BitVec 256, text = wordText word := by
  simp only [hex32, isBytes32, Bool.and_eq_true, decide_eq_true_eq] at h
  exact exists_of_hex (by decide) h.1.1 h.1.2 h.2

theorem exists_of_walletAddress {text : Text} (h : walletAddress text = true) :
    ∃ address : BitVec 160, text = addressText address := by
  simp only [walletAddress, Bool.and_eq_true, decide_eq_true_eq] at h
  exact exists_of_hex (by decide) h.1.1 h.1.2 h.2

theorem exists_of_statusSchema {value : ℚ} (h : statusSchema value = true) :
    ∃ status : BitVec 8, value = status.toNat ∧ 1 ≤ status.toNat ∧ status.toNat ≤ 5 := by
  simp only [statusSchema, Bool.and_eq_true, decide_eq_true_eq] at h
  obtain ⟨⟨hden, hlow⟩, hhigh⟩ := h
  have heq : value = value.num := (Rat.den_eq_one_iff value).mp hden |>.symm
  rw [heq] at hlow hhigh
  have hlow' : 1 ≤ value.num := by exact_mod_cast hlow
  have hhigh' : value.num ≤ 5 := by exact_mod_cast hhigh
  have hnat : (BitVec.ofNat 8 value.num.toNat).toNat = value.num.toNat := by
    rw [BitVec.toNat_ofNat]
    omega
  refine ⟨BitVec.ofNat 8 value.num.toNat, ?_, by omega, by omega⟩
  rw [hnat, heq]
  exact_mod_cast (Int.toNat_of_nonneg (by omega : 0 ≤ value.num)).symm

theorem creReport_schema {value : JsonValue} {report : RegistryReport}
    (h : creReport value = some report) :
    chainIdSchema report.chainId ∧ receiverSchema report.receiver ∧ hex32 report.recordId ∧
      positiveUint64 report.registryVersion ∧ hex32 report.contentHash ∧
      positiveUint64 report.observedAt ∧ positiveUint64 report.validUntil ∧
      positiveUint64 report.sequence ∧ statusSchema report.status := by
  have hread : ∀ {members key schema text}, readText members key schema = some text →
      schema text = true := by
    intro members key schema text htext
    unfold readText at htext
    split at htext
    · split at htext
      · next hschema =>
        cases htext
        exact hschema
      · cases htext
    · cases htext
  have hstatus : ∀ {members value}, readStatus members = some value → statusSchema value = true := by
    intro members value hvalue
    unfold readStatus at hvalue
    split at hvalue
    · split at hvalue
      · next hschema =>
        cases hvalue
        exact hschema
      · cases hvalue
    · cases hvalue
  unfold creReport at h
  split at h
  · split at h
    · cases h
    · simp only [Option.bind_eq_bind, Option.bind_eq_some_iff, Option.some.injEq] at h
      obtain ⟨_, h₁, _, h₂, _, h₃, _, h₄, _, h₅, _, h₆, _, h₇, _, h₈, _, h₉, rfl⟩ := h
      exact ⟨hread h₁, hread h₂, hread h₃, hread h₄, hread h₅, hread h₆, hread h₇, hread h₈,
        hstatus h₉⟩
  · cases h

/-- A report that fits the schema is a report of the contract, as text. -/
theorem exists_render {value : JsonValue} {report : RegistryReport}
    (h : creReport value = some report) :
    ∃ wire : Report, render wire = report ∧ FieldsInRange wire := by
  obtain ⟨hchainId, hreceiver, hrecordId, hversion, hcontentHash, hobservedAt, hvalidUntil,
    hsequence, hstatus⟩ := creReport_schema h
  simp only [receiverSchema, Bool.and_eq_true] at hreceiver
  obtain ⟨chainId, -, hchainId⟩ := exists_of_positiveUint hchainId
  obtain ⟨receiver, hreceiver⟩ := exists_of_walletAddress hreceiver.1
  obtain ⟨recordId, hrecordId⟩ := exists_of_hex32 hrecordId
  obtain ⟨contentHash, hcontentHash⟩ := exists_of_hex32 hcontentHash
  obtain ⟨registryVersion, hversion₀, hversion⟩ := exists_of_positiveUint64 hversion
  obtain ⟨observedAt, -, hobservedAt⟩ := exists_of_positiveUint64 hobservedAt
  obtain ⟨validUntil, -, hvalidUntil⟩ := exists_of_positiveUint64 hvalidUntil
  obtain ⟨sequence, hsequence₀, hsequence⟩ := exists_of_positiveUint64 hsequence
  obtain ⟨status, hstatus, hlow, hhigh⟩ := exists_of_statusSchema hstatus
  refine ⟨⟨chainId, receiver, recordId, registryVersion, contentHash, observedAt, validUntil,
    sequence, status⟩, ?_, hversion₀, hsequence₀, hlow, hhigh⟩
  simp only [render, ← hchainId, ← hreceiver, ← hrecordId, ← hcontentHash, ← hversion,
    ← hobservedAt, ← hvalidUntil, ← hsequence, ← hstatus]

/-! ## Encoding and delivery -/

theorem encodeReport_render {encodeAbiParameters : AbiValues → Except Thrown Text}
    (hencodes : EncodesAbi encodeAbiParameters) (wire : Report) :
    encodeReport encodeAbiParameters (render wire) = .ok (bytesToHex (abiEncode wire)) := by
  have hlength : (bytesToHex (abiEncode wire)).length = 2 + 2 * REPORT_ABI_BYTES := by
    rw [bytesToHex, List.length_append, length_flatMap_hexPair, length_abiEncode]
    rfl
  have hwire := hencodes wire
  simp only [abiValues] at hwire
  simp only [encodeReport, render, bigInt, parseBigInt_decimalText, Option.elim_some, bind,
    Except.bind, hwire, hlength]
  rfl

/-- Two reports of the contract with one encoding are one report. -/
theorem abiEncode_injective {a b : Report} (h : abiEncode a = abiEncode b) : a = b := by
  have hdecode := abiDecode_abiEncode a
  rw [h, abiDecode_abiEncode, Except.ok.injEq] at hdecode
  exact hdecode.symm

theorem wordText_zero : wordText 0 = zeroHash := by decide

/-- What validation established about the report as numbers. -/
structure Validated (keccak_256 : Bytes → Digest) (config : Config) (wire : Report) : Prop where
  inRange : FieldsInRange wire
  recordId : wordText wire.recordId = recordIdFor keccak_256 config.publicKey
  contentHash : wire.contentHash ≠ 0
  lifetime : wire.observedAt.toNat < wire.validUntil.toNat

theorem exists_validated {keccak_256 : Bytes → Digest} {parse : Text → Option JsonValue}
    {body : Text} {config : Config} {report : RegistryReport}
    (h : validateReport keccak_256 parse body config = .ok report) :
    ∃ wire, render wire = report ∧ Validated keccak_256 config wire := by
  obtain ⟨-, h⟩ := guard_ok.mp h
  split at h
  · next ttl parsed httl hparsed =>
    obtain ⟨value, -, hvalue⟩ := Option.bind_eq_some_iff.mp hparsed
    obtain ⟨wire, rfl, hrange⟩ := exists_render hvalue
    obtain ⟨_, hrefine, h⟩ := bind_ok.mp h
    obtain rfl := Except.ok.inj h
    simp only [refineReport, guard_ok, not_or, ne_eq, not_not] at hrefine
    obtain ⟨⟨-, -, hrecordId⟩, hcontentHash, hlifetime⟩ := hrefine
    refine ⟨wire, rfl, hrange, hrecordId, ?_, ?_⟩
    · rintro hzero
      exact hcontentHash (by rw [render, hzero, wordText_zero])
    · simp only [render, parseBigInt_decimalText, guard_ok, not_or, not_le] at hlifetime
      exact_mod_cast hlifetime.1.1
  · cases h

/-- The guards on the report alone let it pass at any time it is valid. -/
theorem checkReport_ok_of_validated {keccak_256 : Bytes → Digest} {config : Config} {wire : Report}
    (h : Validated keccak_256 config wire) (hrecord : wire.recordId ≠ 0) {r : Receiver}
    {timestamp : BitVec 256} (hchain : wire.chainId = r.chainId) (hself : wire.receiver = r.self)
    (hobserved : wire.observedAt.toNat ≤ timestamp.toNat)
    (hvalid : timestamp.toNat < wire.validUntil.toNat)
    (hlifetime : wire.validUntil.toNat ≤ wire.observedAt.toNat + r.maxReportTTL.toNat) :
    checkReport r timestamp wire = .ok () := by
  have hfields : ¬ (wire.recordId = 0 ∨ wire.contentHash = 0 ∨ wire.registryVersion = 0 ∨
      wire.sequence = 0 ∨ wire.status.toNat < Contracts.StatusReceiver.CURRENT.toNat ∨
      Contracts.StatusReceiver.UNAVAILABLE.toNat < wire.status.toNat) := by
    simp only [not_or, Nat.not_lt]
    exact ⟨hrecord, h.contentHash, h.inRange.registryVersion, h.inRange.sequence,
      h.inRange.status_ge, h.inRange.status_le⟩
  have htime : ¬ (timestamp.toNat < wire.observedAt.toNat ∨
      wire.validUntil.toNat ≤ timestamp.toNat ∨ wire.validUntil.toNat ≤ wire.observedAt.toNat) := by
    omega
  have hsub : Contracts.StatusReceiver.checkedSub wire.validUntil wire.observedAt =
      .ok (wire.validUntil - wire.observedAt) :=
    if_neg (Nat.not_lt.mpr h.lifetime.le)
  have hage := Contracts.StatusReceiver.checkedSub_ok hsub
  rw [checkReport, if_neg (by simp [hchain, hself]), if_neg hfields, if_neg htime, hsub]
  exact if_neg (by omega)

/-- Past the sender, the size and the report's own guards only the order is left. -/
theorem onReport_eq {r : Receiver} {states : States} {call : Call} {wire : Report}
    (hauthentic : authenticate r call = .ok ()) (hreport : call.report = octets (abiEncode wire))
    (hcheck : checkReport r call.timestamp wire = .ok ()) {refusal : Revert}
    (h : onReport r states call = .error refusal) :
    checkOrder (states wire.recordId) wire = .error refusal := by
  have hlength : ¬ call.report.length ≠ 9 * 32 := by
    rw [hreport, octets, List.length_map, length_abiEncode]
    decide
  unfold onReport at h
  rcases bind_error.mp h with h | ⟨_, _, h⟩
  · rw [hauthentic] at h
    cases h
  · rw [if_neg hlength, hreport] at h
    rcases bind_error.mp h with h | ⟨decoded, hdecoded, h⟩
    · rw [abiDecode_abiEncode] at h
      cases h
    · rw [abiDecode_abiEncode, Except.ok.injEq] at hdecoded
      subst hdecoded
      rcases bind_error.mp h with h | ⟨_, _, h⟩
      · rw [hcheck] at h
        cases h
      · rcases bind_error.mp h with h | ⟨_, _, h⟩
        · exact h
        · cases h

theorem checkOrder_error {previous next : Report} {refusal : Revert}
    (h : checkOrder previous next = .error refusal) :
    refusal ∈ [Revert.outOfOrderReport, .versionRollback, .contentHashConflict] := by
  unfold checkOrder at h
  split at h
  · cases h
    decide
  · split at h
    · cases h
      decide
    · split at h
      · cases h
        decide
      · cases h

theorem validated_report_agrees {encodeAbiParameters : AbiValues → Except Thrown Text}
    (hencodes : EncodesAbi encodeAbiParameters) {keccak_256 : Bytes → Digest}
    {parse : Text → Option JsonValue} {body : Text} {config : Config} {report : RegistryReport}
    (hvalid : validateReport keccak_256 parse body config = .ok report) :
    ∃ (bytes : Bytes) (wire : Report),
      encodeReport encodeAbiParameters report = .ok (bytesToHex bytes) ∧ bytes.length = 288 ∧
      abiDecode (octets bytes) = .ok wire ∧ render wire = report ∧
      (∀ (r : Receiver) (states : States) (call : Call) (refusal : Revert),
        wire.chainId = r.chainId → wire.receiver = r.self → authenticate r call = .ok () →
        call.report = octets bytes → wire.observedAt.toNat ≤ call.timestamp.toNat →
        call.timestamp.toNat < wire.validUntil.toNat →
        wire.validUntil.toNat ≤ wire.observedAt.toNat + r.maxReportTTL.toNat →
        onReport r states call = .error refusal →
        refusal ∈ [Revert.outOfOrderReport, .versionRollback, .contentHashConflict] ∨
          recordIdFor keccak_256 config.publicKey = zeroHash) ∧
      ∀ (body' : Text) (config' : Config) (report' : RegistryReport),
        validateReport keccak_256 parse body' config' = .ok report' →
        encodeReport encodeAbiParameters report' = encodeReport encodeAbiParameters report →
        report' = report := by
  obtain ⟨wire, rfl, hvalidated⟩ := exists_validated hvalid
  refine ⟨abiEncode wire, wire, encodeReport_render hencodes wire, length_abiEncode wire,
    abiDecode_abiEncode wire, rfl, ?_, ?_⟩
  · intro r states call refusal hchain hself hauthentic hreport hobserved huntil hlifetime hrefused
    by_cases hrecord : wire.recordId = 0
    · refine .inr ?_
      rw [← hvalidated.recordId, hrecord, wordText_zero]
    · have hcheck := checkReport_ok_of_validated hvalidated hrecord hchain hself hobserved huntil
        hlifetime
      exact .inl (checkOrder_error (onReport_eq hauthentic hreport hcheck hrefused))
  · intro body' config' report' hvalid' hsame
    obtain ⟨wire', rfl, -⟩ := exists_validated hvalid'
    rw [encodeReport_render hencodes, encodeReport_render hencodes, Except.ok.injEq] at hsame
    rw [abiEncode_injective (bytesToHex_injective hsame)]

/-! ## An encoder and its runs -/

section Runs

def uintOf (width : Nat) (value : Int) : Option (BitVec width) :=
  if 0 ≤ value ∧ value < 2 ^ width then some (BitVec.ofNat width value.toNat) else none

/-- The number a hexadecimal text of `count` bytes spells. -/
def hexOf (count width : Nat) (text : Text) : Option (BitVec width) :=
  match hexToBytes text with
  | .ok bytes =>
    if bytes.length = count then some (BitVec.ofNat width (BigEndian.value bytes)) else none
  | .error _ => none

/-- Every argument is checked against its type, and the nine words are written. -/
def encodeNineWords (values : AbiValues) : Except Thrown Text :=
  let wire : Option Report := do
    let chainId ← uintOf 256 values.chainId
    let receiver ← hexOf 20 160 values.receiver
    let recordId ← hexOf 32 256 values.recordId
    let registryVersion ← uintOf 64 values.registryVersion
    let contentHash ← hexOf 32 256 values.contentHash
    let observedAt ← uintOf 64 values.observedAt
    let validUntil ← uintOf 64 values.validUntil
    let sequence ← uintOf 64 values.sequence
    let status ← if values.status.den = 1 then uintOf 8 values.status.num else none
    some {
      chainId, receiver, recordId, registryVersion, contentHash, observedAt, validUntil
      sequence, status }
  wire.elim (.error .abiError) fun wire => .ok (bytesToHex (abiEncode wire))

theorem uintOf_toNat {width : Nat} (word : BitVec width) : uintOf width word.toNat = some word := by
  have hlt : (word.toNat : Int) < 2 ^ width := by exact_mod_cast word.isLt
  simp [uintOf, hlt]

theorem hexOf_bytesToHex {count width : Nat} (hwidth : 256 ^ count = 2 ^ width)
    (word : BitVec width) :
    hexOf count width (bytesToHex (BigEndian.bytes count word.toNat)) = some word := by
  have hlt : word.toNat < 256 ^ count := hwidth ▸ word.isLt
  simp [hexOf, BigEndian.value_bytes_of_lt hlt]

theorem encodesAbi_encodeNineWords : EncodesAbi encodeNineWords := by
  intro report
  have hreceiver := hexOf_bytesToHex (show 256 ^ 20 = 2 ^ 160 by decide) report.receiver
  have hwords := hexOf_bytesToHex (show 256 ^ 32 = 2 ^ 256 by decide)
  have hden : ((report.status.toNat : ℚ)).den = 1 := Rat.den_natCast _
  have hnum : ((report.status.toNat : ℚ)).num = report.status.toNat := Rat.num_natCast _
  simp [encodeNineWords, abiValues, addressText, wordText, uintOf_toNat, hreceiver, hwords, hden,
    hnum]

/-- A report of version zero: its texts are well-formed, but the schema refuses it. -/
def unversioned : Report where
  chainId := 31337
  receiver := 0xab
  recordId := 0x6b
  registryVersion := 0
  contentHash := 0x22
  observedAt := 1700000000
  validUntil := 1700000300
  sequence := 1
  status := 1

def mirror : Receiver where
  trustedForwarder := 1
  expectedWorkflowId := 2
  expectedWorkflowOwner := 3
  maxReportTTL := 3600
  self := 0xab
  chainId := 31337
  forwarder_ne := by decide
  workflowId_ne := by decide
  workflowOwner_ne := by decide
  ttl_ne := by decide
  ttl_le := by decide

/-- A delivery by the forwarder `mirror` trusts, for its workflow. -/
def delivery (bytes : Bytes) : Call where
  sender := 1
  timestamp := 1700000001
  metadata := octets (BigEndian.bytes 32 2 ++ List.replicate 10 0 ++ BigEndian.bytes 20 3 ++ [0, 0])
  report := octets bytes

theorem authenticate_delivery (bytes : Bytes) : authenticate mirror (delivery bytes) = .ok () := by
  have hlength : (delivery bytes).metadata.length = 64 := rfl
  have hworkflow : calldataload (delivery bytes).metadata 0 = mirror.expectedWorkflowId := by
    change calldataload (delivery []).metadata 0 = _
    decide +kernel
  have howner : ((calldataload (delivery bytes).metadata 42) >>> 96).setWidth 160 =
      mirror.expectedWorkflowOwner := by
    change ((calldataload (delivery []).metadata 42) >>> 96).setWidth 160 = _
    decide +kernel
  simp only [authenticate, hlength, hworkflow, howner]
  simp [delivery, mirror]

theorem unversioned_report_refused :
    encodeReport encodeNineWords (render unversioned) = .ok (bytesToHex (abiEncode unversioned)) ∧
      unversioned.chainId = mirror.chainId ∧ unversioned.receiver = mirror.self ∧
      authenticate mirror (delivery (abiEncode unversioned)) = .ok () ∧
      unversioned.observedAt.toNat ≤ (delivery (abiEncode unversioned)).timestamp.toNat ∧
      (delivery (abiEncode unversioned)).timestamp.toNat < unversioned.validUntil.toNat ∧
      onReport mirror Contracts.StatusReceiver.deployed (delivery (abiEncode unversioned)) =
        .error .invalidReport := by
  refine ⟨encodeReport_render encodesAbi_encodeNineWords _, rfl, rfl,
    authenticate_delivery _, by decide, by decide, ?_⟩
  have hcheck : checkReport mirror 1700000001 unversioned = .error .invalidReport := by decide
  have hlength : ¬ (delivery (abiEncode unversioned)).report.length ≠ 9 * 32 := by
    simp [delivery, octets, length_abiEncode]
  have hdecode : abiDecode (delivery (abiEncode unversioned)).report = .ok unversioned :=
    abiDecode_abiEncode unversioned
  unfold onReport
  refine bind_error.mpr (.inr ⟨(), authenticate_delivery _, ?_⟩)
  rw [if_neg hlength]
  exact bind_error.mpr (.inr ⟨unversioned, hdecode, bind_error.mpr (.inl hcheck)⟩)

/-- The same report of version one, and a digest that is its record id. -/
def observed : Report := { unversioned with registryVersion := 1, status := 2 }

def observedDigest (_ : Bytes) : Digest := ⟨BigEndian.bytes 32 0x6b, rfl⟩

def observedConfig : Config where
  publicKey := units "approved-v1"
  chainId := units "31337"
  receiver := addressText 0xab
  ttlSeconds := units "300"

def observedObject (_ : Text) : Option JsonValue :=
  let report := render observed
  some (.object [
    (units "chainId", .str report.chainId), (units "receiver", .str report.receiver),
    (units "recordId", .str report.recordId),
    (units "registryVersion", .str report.registryVersion),
    (units "contentHash", .str report.contentHash), (units "observedAt", .str report.observedAt),
    (units "validUntil", .str report.validUntil), (units "sequence", .str report.sequence),
    (units "status", .number report.status)])

theorem validateReport_observed :
    validateReport observedDigest observedObject [] observedConfig = .ok (render observed) := by
  rfl

theorem validated_report_agrees_observed :
    ∃ (bytes : Bytes) (wire : Report),
      encodeReport encodeNineWords (render observed) = .ok (bytesToHex bytes) ∧
        bytes.length = 288 ∧ abiDecode (octets bytes) = .ok wire ∧ render wire = render observed := by
  obtain ⟨bytes, wire, hencode, hlength, hdecode, hrender, -⟩ :=
    validated_report_agrees encodesAbi_encodeNineWords validateReport_observed
  exact ⟨bytes, wire, hencode, hlength, hdecode, hrender⟩

end Runs

end MpcRegistry.Cre
