import MpcRegistry.Ecma.BigInt
import MpcRegistry.Library.Outcome

/-!
# Reports of the CRE workflow

Source: packages/cre-workflow/src/protocol.ts:14-59, 95-103, 175-268,
packages/api-contract/src/cre.ts:4-22, packages/api-contract/src/common.ts:12-18.
`JSON.parse` and viem's `encodeAbiParameters` are parameters; a number is the
rational that a finite double is.
-/
namespace MpcRegistry.Cre
open Library Library.Outcome Ecma Canonical

/-- What the schema tells apart in parsed JSON: `other` is refused wherever it stands. -/
inductive JsonValue where
  | str (value : Text)
  | number (value : ℚ)
  | object (members : List (Text × JsonValue))
  | other

structure RegistryReport where
  chainId : Text
  receiver : Text
  recordId : Text
  registryVersion : Text
  contentHash : Text
  observedAt : Text
  validUntil : Text
  sequence : Text
  status : ℚ
  deriving DecidableEq, Repr

/-- The fields of `Config` that the report is checked against. -/
structure Config where
  publicKey : Text
  chainId : Text
  receiver : Text
  ttlSeconds : Text
  deriving DecidableEq, Repr

inductive WorkflowError where
  | responseSize | reportInvalid | identity | content | lifetime | encoding
  deriving DecidableEq, Repr

/-- `ERRORS` -/
def WorkflowError.message : WorkflowError → Text
  | .responseSize => units "Registry response exceeds report limit"
  | .reportInvalid => units "Registry returned an invalid status report"
  | .identity => units "Registry report identity/domain mismatch"
  | .content => units "invalid report content or status"
  | .lifetime => units "invalid report lifetime"
  | .encoding => units "failed to encode report"

/-- A `WorkflowError`, the `SyntaxError` of `BigInt`, or what viem refuses with. -/
inductive Thrown where
  | workflowError (error : WorkflowError)
  | syntaxError
  | abiError
  deriving DecidableEq, Repr

def MAX_REPORT_BYTES : Nat := 16384

def REPORT_ABI_BYTES : Nat := 288

/-! ## The schema -/

def walletAddress (value : Text) : Bool :=
  value.take 2 = units "0x" && (value.drop 2).length = 40 && (value.drop 2).all isLowerHex

/-- `hex32` has the pattern of `assertBytes32`. -/
def hex32 (value : Text) : Bool := isBytes32 value

def zeroAddress : Text := units "0x" ++ List.replicate 40 0x30

def zeroHash : Text := units "0x" ++ List.replicate 64 0x30

/-- A positive decimal of at most `digits` digits and at most `limit`. -/
def positiveUint (digits : Nat) (limit : Int) (value : Text) : Bool :=
  isPositiveDecimal value && value.length ≤ digits &&
    (parseBigInt value).any fun integer => integer ≤ limit

def positiveUint64 (value : Text) : Bool := positiveUint 20 18446744073709551615 value

def chainIdSchema (value : Text) : Bool := positiveUint 78 (2 ^ 256 - 1) value

def receiverSchema (value : Text) : Bool := walletAddress value && value ≠ zeroAddress

/-- `z.number().int().min(1).max(5)` -/
def statusSchema (value : ℚ) : Bool := value.den = 1 && 1 ≤ value && value ≤ 5

def reportKeys : List Text :=
  [units "chainId", units "receiver", units "recordId", units "registryVersion",
    units "contentHash", units "observedAt", units "validUntil", units "sequence", units "status"]

def readMember (members : List (Text × JsonValue)) (key : Text) : Option JsonValue :=
  (members.find? fun member => member.1 = key).map (·.2)

def readText (members : List (Text × JsonValue)) (key : Text) (schema : Text → Bool) :
    Option Text :=
  match readMember members key with
  | some (.str value) => if schema value then some value else none
  | _ => none

def readStatus (members : List (Text × JsonValue)) : Option ℚ :=
  match readMember members (units "status") with
  | some (.number value) => if statusSchema value then some value else none
  | _ => none

/-- `creReport.safeParse`: an object with exactly these fields. -/
def creReport (value : JsonValue) : Option RegistryReport :=
  match value with
  | .object members =>
    if members.any fun member => member.1 ∉ reportKeys then none
    else do
      let chainId ← readText members (units "chainId") chainIdSchema
      let receiver ← readText members (units "receiver") receiverSchema
      let recordId ← readText members (units "recordId") hex32
      let registryVersion ← readText members (units "registryVersion") positiveUint64
      let contentHash ← readText members (units "contentHash") hex32
      let observedAt ← readText members (units "observedAt") positiveUint64
      let validUntil ← readText members (units "validUntil") positiveUint64
      let sequence ← readText members (units "sequence") positiveUint64
      let status ← readStatus members
      some {
        chainId, receiver, recordId, registryVersion, contentHash, observedAt, validUntil
        sequence, status }
  | _ => none

/-! ## Validation -/

/-- `toLowerCase`. Outside ASCII no letter has a hexadecimal digit as its lower case. -/
def toLowerCase (text : Text) : Text :=
  text.map fun u => if 0x41 ≤ u ∧ u ≤ 0x5a then u + 0x20 else u

section Functions

variable (keccak_256 : Bytes → Digest)

def recordIdFor (publicKey : Text) : Text :=
  keccak256 keccak_256 (Utf16.encodeUtf8 (units "mpc-registry:project:" ++ publicKey))

/-- What `superRefine` adds to the schema: destination, content and lifetime. -/
def refineReport (config : Config) (ttl : Int) (report : RegistryReport) : Except WorkflowError Unit :=
  if report.chainId ≠ config.chainId ∨ report.receiver ≠ toLowerCase config.receiver ∨
      report.recordId ≠ recordIdFor keccak_256 config.publicKey then .error .identity
  else if report.contentHash = zeroHash then .error .content
  else
    match parseBigInt report.observedAt, parseBigInt report.validUntil with
    | some observed, some until_ =>
      if until_ ≤ observed ∨ ttl < until_ - observed then .error .lifetime else .ok ()
    | _, _ => .error .reportInvalid

/-- An issue of the schema is reported as such; the refinement's own messages are kept. -/
def validateReport (parse : Text → Option JsonValue) (body : Text) (config : Config) :
    Except WorkflowError RegistryReport :=
  if MAX_REPORT_BYTES < (Utf16.encodeUtf8 body).length then .error .responseSize
  else
    match parseBigInt config.ttlSeconds, (parse body).bind creReport with
    | some ttl, some report => do
      refineReport keccak_256 config ttl report
      .ok report
    | _, _ => .error .reportInvalid

end Functions

/-! ## Encoding -/

/-- The nine arguments of `encodeAbiParameters`, as viem takes them. -/
structure AbiValues where
  chainId : Int
  receiver : Text
  recordId : Text
  registryVersion : Int
  contentHash : Text
  observedAt : Int
  validUntil : Int
  sequence : Int
  status : ℚ
  deriving DecidableEq, Repr

def bigInt (text : Text) : Except Thrown Int :=
  (parseBigInt text).elim (.error .syntaxError) .ok

def encodeReport (encodeAbiParameters : AbiValues → Except Thrown Text) (report : RegistryReport) :
    Except Thrown Text := do
  let chainId ← bigInt report.chainId
  let registryVersion ← bigInt report.registryVersion
  let observedAt ← bigInt report.observedAt
  let validUntil ← bigInt report.validUntil
  let sequence ← bigInt report.sequence
  let encoded ← encodeAbiParameters {
    chainId
    receiver := report.receiver
    recordId := report.recordId
    registryVersion
    contentHash := report.contentHash
    observedAt, validUntil, sequence
    status := report.status }
  if encoded.length ≠ 2 + 2 * REPORT_ABI_BYTES then .error (.workflowError .encoding)
  else .ok encoded

end MpcRegistry.Cre
