import MpcRegistry.Canonical.Hash

/-!
# The Merkle tree of a batch and its proofs

Source: packages/canonical/src/merkle.ts:18-114. Layers are built as the loop
does; one unit of fuel for each leaf is more than it takes.
-/
namespace MpcRegistry.Canonical
open Library

structure MerkleTree where
  root : Text
  layers : List (List Text)
  leafCount : Nat
  deriving DecidableEq, Repr

/-- `bytes.set(source, offset)`; what does not fit throws. -/
def setBytes (bytes source : Bytes) (offset : Nat) : Except Thrown Bytes :=
  if offset + source.length > bytes.length then .error .rangeError
  else .ok (bytes.take offset ++ source ++ bytes.drop (offset + source.length))

/-- The 64 bytes `hashPair` hashes, the smaller text first. -/
def pairBytes (a b : Text) : Except Thrown Bytes := do
  let left := if a ≤ b then a else b
  let right := if a ≤ b then b else a
  let leftBytes ← hexToBytes left
  let bytes ← setBytes (List.replicate 64 0) leftBytes 0
  let rightBytes ← hexToBytes right
  setBytes bytes rightBytes 32

section Keccak

variable (keccak_256 : Bytes → Digest)

def hashPair (a b : Text) : Except Thrown Text := do
  let bytes ← pairBytes a b
  .ok (keccak256 keccak_256 bytes)

/-- One round of the inner loop: pairs are hashed, an odd last node is promoted. -/
def nextLayer : List Text → Except Thrown (List Text)
  | left :: right :: rest => do
    let node ← hashPair keccak_256 left right
    let next ← nextLayer rest
    .ok (node :: next)
  | [promoted] => .ok [promoted]
  | [] => .ok []

/-- The layers from `current` up to the one with a single node. -/
def layersFrom : Nat → List Text → Except Thrown (List (List Text))
  | 0, current => .ok [current]
  | fuel + 1, current =>
    if current.length > 1 then do
      let next ← nextLayer keccak_256 current
      let layers ← layersFrom fuel next
      .ok (current :: layers)
    else .ok [current]

/-- Each leaf hash is checked under its index, in order. -/
def assertLeafHashes : Nat → List Text → Except Thrown Unit
  | _, [] => .ok ()
  | index, leaf :: rest => do
    assertBytes32 leaf (units "leafHashes[" ++ decimal index ++ units "]")
    assertLeafHashes (index + 1) rest

/-- The second of the first two equal neighbours. -/
def findDuplicate : List Text → Option Text
  | a :: b :: rest => if b = a then some b else findDuplicate (b :: rest)
  | _ => none

def buildMerkleTree (leafHashes : List Text) : Except Thrown MerkleTree := do
  if leafHashes.length = 0 then
    throwCanonical .merkleEmptyBatch (units "An empty batch cannot be anchored") []
  assertLeafHashes 0 leafHashes
  let sorted := leafHashes.insertionSort (· ≤ ·)
  match findDuplicate sorted with
  | some leaf => throwCanonical .merkleDuplicateLeaf (units "Duplicate leaf in batch: " ++ leaf) []
  | none => do
    let layers ← layersFrom keccak_256 leafHashes.length sorted
    .ok { root := (layers.getLastD []).headD [], layers, leafCount := sorted.length }

/-- The loop over the levels below the root, from the lowest; a missing sibling
was promoted and adds nothing. -/
def proofFrom : List (List Text) → Nat → List Text
  | layer :: next :: above, index =>
    let siblingIndex := if index % 2 = 0 then index + 1 else index - 1
    layer[siblingIndex]?.toList ++ proofFrom (next :: above) (index / 2)
  | _, _ => []

def getMerkleProof (tree : MerkleTree) (leafHash : Text) : Except Thrown (List Text) :=
  match (tree.layers.headD []).idxOf? leafHash with
  | none =>
    throwCanonical .merkleLeafNotFound (units "Leaf is not in this batch: " ++ leafHash) []
  | some index => .ok (proofFrom tree.layers index)

/-- The node a proof leads to from a leaf hash. -/
def climbProof (leafHash : Text) (proof : List Text) : Except Thrown Text :=
  proof.foldlM (hashPair keccak_256) leafHash

def verifyMerkleProof (leafHash : Text) (proof : List Text) (root : Text) :
    Except Thrown Bool := do
  let computed ← climbProof keccak_256 leafHash proof
  .ok (computed = root)

end Keccak

end MpcRegistry.Canonical
