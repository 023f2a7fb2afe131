import MpcRegistry.Canonical.Hash
import MpcRegistry.Verification.Provenance

/-!
# The snapshot of a review's evidence

Source: apps/api/src/services/evidence-snapshot.ts. The hash is taken of the canonical
bytes of what the snapshot has read.
-/
namespace MpcRegistry.Verification
open Library Canonical Utf16

abbrev Uuid := Text

def Grade.text : Grade → Text
  | rejected => units "rejected"
  | unverified => units "unverified"
  | selfReported => units "self_reported"
  | partiallyVerified => units "partially_verified"
  | verified => units "verified"

/-- A value of `structured_values`. -/
inductive StructuredValue where
  | text (value : Text)
  | flag (value : Bool)
  deriving DecidableEq, Repr

def StructuredValue.value : StructuredValue → JsValue
  | text value => .str value
  | flag value => .bool value

/-- What a catalog entry adds to a claim. -/
structure StructuredClaim where
  catalogEntryId : Text
  catalogVersion : Option Nat
  values : Option (List (Text × StructuredValue))
  documentUploadIds : List Uuid
  deriving DecidableEq, Repr

/-- `snapshotClaimFingerprint` -/
structure ClaimFingerprint where
  id : Uuid
  valueText : Text
  grade : Grade
  structured : Option StructuredClaim
  deriving DecidableEq, Repr

structure SnapshotInput where
  claimIds : List Uuid
  artifactIds : List Uuid
  receiptIds : List Uuid
  claimFingerprints : List ClaimFingerprint
  deriving DecidableEq, Repr

def sortIds (ids : List Uuid) : List Uuid := ids.insertionSort (· ≤ ·)

def texts (ref : Nat) (values : List Text) : JsValue := .array ref (values.map .str)

def StructuredClaim.canonicalForm (claim : StructuredClaim) : JsValue :=
  .object 3 true [
    (units "catalogEntryId", .str claim.catalogEntryId),
    (units "catalogVersion", claim.catalogVersion.elim .null fun version => .str (decimal version)),
    (units "values", claim.values.elim .null fun values =>
      .object 4 true (values.map fun member => (member.1, member.2.value))),
    (units "documentUploadIds", texts 4 (sortIds claim.documentUploadIds))]

def ClaimFingerprint.canonicalForm (claim : ClaimFingerprint) : JsValue :=
  .object 2 true ([
    (units "id", .str claim.id),
    (units "valueText", .str claim.valueText),
    (units "grade", .str claim.grade.text)] ++
    (claim.structured.map fun structured =>
      (units "structured", structured.canonicalForm)).toList)

def canonicalForm (input : SnapshotInput) : JsValue :=
  .object 0 true [
    (units "snapshotVersion",
      .str (if input.claimFingerprints.any (·.structured.isSome) then units "2" else units "1")),
    (units "claimIds", texts 1 (sortIds input.claimIds)),
    (units "artifactIds", texts 1 (sortIds input.artifactIds)),
    (units "receiptIds", texts 1 (sortIds input.receiptIds)),
    (units "claims", .array 1
      ((input.claimFingerprints.insertionSort fun a b => a.id ≤ b.id).map (·.canonicalForm)))]

/-- `canonicalBytes(canonicalForm(input))` -/
def snapshotBytes (input : SnapshotInput) : Except Thrown Bytes := do
  let text ← serializeValue (canonicalForm input) [] []
  .ok (encodeUtf8 text)

def hashSnapshotInput (keccak_256 : Bytes → Digest) (input : SnapshotInput) : Except Thrown Text :=
  (snapshotBytes input).map (keccak256 keccak_256)

/-- Two snapshots of different bytes that have one hash. -/
def Collide (keccak_256 : Bytes → Digest) (a b : SnapshotInput) : Prop :=
  ∃ x y, snapshotBytes a = .ok x ∧ snapshotBytes b = .ok y ∧ x ≠ y ∧
    keccak256 keccak_256 x = keccak256 keccak_256 y

/-- The hash of one snapshot is that of another exactly when they have the same bytes,
unless they collide. -/
theorem hashSnapshotInput_eq_iff {keccak_256 : Bytes → Digest} {a b : SnapshotInput} {hash : Text}
    (h : hashSnapshotInput keccak_256 b = .ok hash) :
    hashSnapshotInput keccak_256 a = .ok hash ↔
      snapshotBytes a = snapshotBytes b ∨ Collide keccak_256 a b := by
  obtain ⟨y, hy, rfl⟩ := Outcome.map_ok.mp h
  constructor
  · intro ha
    obtain ⟨x, hx, hsame⟩ := Outcome.map_ok.mp ha
    by_cases heq : x = y
    · exact .inl (by rw [hx, hy, heq])
    · exact .inr ⟨x, y, hx, hy, heq, hsame⟩
  · rintro (hsame | ⟨x, y', hx, hy', -, hhash⟩)
    · rw [hashSnapshotInput, hsame]
      exact h
    · obtain rfl : y = y' := Except.ok.inj (hy.symm.trans hy')
      exact Outcome.map_ok.mpr ⟨x, hx, hhash⟩

end MpcRegistry.Verification
