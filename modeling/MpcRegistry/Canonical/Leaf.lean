import MpcRegistry.Canonical.Hash

/-!
# Leaves of an anchor batch

Source: packages/canonical/src/leaf.ts:14-83. A leaf's fields are whatever
strings the caller has; `assertValidLeaf` is what restricts them.
-/
namespace MpcRegistry.Canonical
open Library

structure RegistryLeaf where
  registryType : Text
  entryVersionId : Text
  subjectId : Text
  version : Text
  status : Text
  serializationVersion : Text
  policyVersion : Text
  schemaVersion : Text
  contentHash : Text
  deriving DecidableEq, Repr

def registryTypes : List Text := [units "project", units "verification", units "asset"]

def leafStatuses : List Text := [units "published", units "revoked", units "superseded"]

/-- A decimal integer without leading zeros: `0`, or a first digit that is none. -/
def isVersion (version : Text) : Bool :=
  version = units "0" ||
    match version with
    | [] => false
    | first :: rest => 0x31 ≤ first && first ≤ 0x39 && rest.all Json.isDigit

def requireNonEmpty (value field : Text) : Except Thrown Unit :=
  if value = [] then
    throwCanonical .leafInvalidField (units "leaf." ++ field ++ units " must not be empty")
      (units "/" ++ field)
  else .ok ()

def assertValidLeaf (leaf : RegistryLeaf) : Except Thrown Unit := do
  if leaf.registryType ∉ registryTypes then
    throwCanonical .leafInvalidField (units "Unknown registryType: " ++ leaf.registryType)
      (units "/registryType")
  if leaf.status ∉ leafStatuses then
    throwCanonical .leafInvalidField (units "Unknown status: " ++ leaf.status) (units "/status")
  if leaf.serializationVersion ≠ units "1" then
    throwCanonical .leafInvalidField
      (units "Unsupported serializationVersion: " ++ leaf.serializationVersion)
      (units "/serializationVersion")
  if !isVersion leaf.version then
    throwCanonical .leafInvalidField
      (units "leaf.version must be a decimal string without leading zeros: " ++ leaf.version)
      (units "/version")
  requireNonEmpty leaf.entryVersionId (units "entryVersionId")
  requireNonEmpty leaf.subjectId (units "subjectId")
  requireNonEmpty leaf.policyVersion (units "policyVersion")
  requireNonEmpty leaf.schemaVersion (units "schemaVersion")
  assertBytes32 leaf.contentHash (units "leaf.contentHash")

/-- The leaf as the object that is serialized. -/
def RegistryLeaf.toValue (leaf : RegistryLeaf) : CanonicalValue where
  value := .object 0 true [
    (units "registryType", .str leaf.registryType),
    (units "entryVersionId", .str leaf.entryVersionId),
    (units "subjectId", .str leaf.subjectId),
    (units "version", .str leaf.version),
    (units "status", .str leaf.status),
    (units "serializationVersion", .str leaf.serializationVersion),
    (units "policyVersion", .str leaf.policyVersion),
    (units "schemaVersion", .str leaf.schemaVersion),
    (units "contentHash", .str leaf.contentHash)]
  canonical := by
    refine .object _ _ _ (by simp) (by simp only [List.map]; decide) fun member hmember => ?_
    simp only [List.mem_cons, List.not_mem_nil, or_false] at hmember
    rcases hmember with rfl | rfl | rfl | rfl | rfl | rfl | rfl | rfl | rfl <;> exact .str _ _

/-- Double keccak256, where an inner node is hashed once. -/
def hashLeaf (keccak_256 : Bytes → Digest) (leaf : RegistryLeaf) : Except Thrown Text := do
  assertValidLeaf leaf
  let bytes ← canonicalBytes leaf.toValue
  let inner ← hexToBytes (keccak256 keccak_256 bytes)
  .ok (keccak256 keccak_256 inner)

end MpcRegistry.Canonical
