import MpcRegistry.Canonical.Merkle
import MpcRegistry.Library.MerkleTree

/-!
# The batch tree as a hash tree

`buildMerkleTree`, `verifyMerkleProof` and `getMerkleProof` work on hex texts.
On texts of 32 bytes they never throw, and compute what the same steps do on
hash trees whose nodes are digests.
-/
namespace MpcRegistry.Canonical
open Library Library.Outcome

/-- What is hashed for a pair: the digest with the smaller text first. -/
def combineDigests (a b : Digest) : Bytes :=
  if bytesToHex a.val ≤ bytesToHex b.val then a.val ++ b.val else b.val ++ a.val

theorem length_combineDigests (a b : Digest) : (combineDigests a b).length = 64 := by
  unfold combineDigests
  split <;> simp [a.property, b.property]

/-- The bytes of a pair tell its members, not their sides. -/
theorem combineDigests_cases (a b c d : Digest) (h : combineDigests a b = combineDigests c d) :
    (a = c ∧ b = d) ∨ (a = d ∧ b = c) := by
  have hsplit : ∀ w x y z : Digest, w.val ++ x.val = y.val ++ z.val → w = y ∧ x = z := by
    intro w x y z heq
    obtain ⟨hleft, hright⟩ := List.append_inj heq (w.property.trans y.property.symm)
    exact ⟨Subtype.ext hleft, Subtype.ext hright⟩
  unfold combineDigests at h
  split at h <;> split at h
  · exact .inl (hsplit _ _ _ _ h)
  · exact .inr (hsplit _ _ _ _ h)
  · exact .inr (hsplit _ _ _ _ h).symm
  · exact .inl (hsplit _ _ _ _ h).symm

theorem setBytes_pair {left right : Bytes} (hleft : left.length = 32) (hright : right.length = 32) :
    (do
      let bytes ← setBytes (List.replicate 64 0) left 0
      setBytes bytes right 32) = .ok (left ++ right) := by
  have hfirst : setBytes (List.replicate 64 0) left 0 = .ok (left ++ List.replicate 32 0) := by
    simp [setBytes, hleft]
  have hsecond : setBytes (left ++ List.replicate 32 0) right 32 = .ok (left ++ right) := by
    simp [setBytes, hleft, hright, List.drop_append]
  rw [hfirst]
  exact hsecond

/-- On 32-byte texts nothing throws and the buffer is full. -/
theorem pairBytes_bytesToHex (a b : Digest) :
    pairBytes (bytesToHex a.val) (bytesToHex b.val) = .ok (combineDigests a b) := by
  unfold pairBytes combineDigests
  split
  · simpa [hexToBytes_bytesToHex, bind, Except.bind] using setBytes_pair a.property b.property
  · simpa [hexToBytes_bytesToHex, bind, Except.bind] using setBytes_pair b.property a.property

section Keccak

variable (keccak_256 : Bytes → Digest)

theorem hashPair_bytesToHex (a b : Digest) :
    hashPair keccak_256 (bytesToHex a.val) (bytesToHex b.val) =
      .ok (bytesToHex (keccak_256 (combineDigests a b)).val) := by
  rw [hashPair, pairBytes_bytesToHex]
  rfl

/-- The text the code has for a tree. -/
def nodeText (tree : HashTree Bytes) : Text :=
  bytesToHex (tree.root keccak_256 combineDigests).val

theorem nextLayer_map (trees : List (HashTree Bytes)) :
    nextLayer keccak_256 (trees.map (nodeText keccak_256)) =
      .ok ((HashTree.pairUp trees).map (nodeText keccak_256)) := by
  fun_induction HashTree.pairUp trees with
  | case1 left right rest ih =>
    simp only [List.map_cons, nextLayer, nodeText, hashPair_bytesToHex] at ih ⊢
    simp only [ih]
    rfl
  | case2 promoted => rfl
  | case3 => rfl

theorem layersFrom_map (fuel : Nat) (trees : List (HashTree Bytes)) :
    layersFrom keccak_256 fuel (trees.map (nodeText keccak_256)) =
      .ok ((HashTree.layers fuel trees).map (List.map (nodeText keccak_256))) := by
  induction fuel generalizing trees with
  | zero => rfl
  | succ fuel ih =>
    rw [layersFrom, HashTree.layers, List.length_map, nextLayer_map]
    split
    · simp only [bind, Except.bind, ih, List.map_cons]
    · rfl

theorem climbProof_map (start : Digest) (digests : List Digest) :
    climbProof keccak_256 (bytesToHex start.val) (digests.map fun digest => bytesToHex digest.val) =
      .ok (bytesToHex (HashTree.climb keccak_256 combineDigests start digests).val) := by
  induction digests generalizing start with
  | nil => rfl
  | cons digest digests ih =>
    rw [climbProof, List.map_cons, List.foldlM_cons, hashPair_bytesToHex]
    exact ih _

theorem proofFrom_eq_siblings (layers : List (List Text)) (index : Nat) :
    proofFrom layers index = HashTree.siblings layers index := by
  induction layers generalizing index with
  | nil => rfl
  | cons layer above ih =>
    cases above with
    | nil => rfl
    | cons next above => simp only [proofFrom, HashTree.siblings, ih]

/-- The text of a leaf hash. -/
def leafText (preimage : Bytes) : Text := bytesToHex (keccak_256 preimage).val

/-- The leaves in the order `buildMerkleTree` sorts their hashes into. -/
def sortedLeaves (preimages : List Bytes) : List (HashTree Bytes) :=
  (preimages.insertionSort fun a b => leafText keccak_256 a ≤ leafText keccak_256 b).map .leaf

theorem map_nodeText_sortedLeaves (preimages : List Bytes) :
    (sortedLeaves keccak_256 preimages).map (nodeText keccak_256) =
      (preimages.map (leafText keccak_256)).insertionSort (· ≤ ·) := by
  rw [sortedLeaves, List.map_map]
  exact List.map_insertionSort _ _ _ _ fun _ _ _ _ => Iff.rfl

/-- The code's tree is made of the texts of hash trees that grow from the sorted
leaves to `top`. -/
structure Mirrors (tree : MerkleTree) (preimages : List Bytes)
    (all : List (List (HashTree Bytes))) (top : HashTree Bytes) : Prop where
  grows : HashTree.GrowsTo all top
  bottom : all.headD [] = sortedLeaves keccak_256 preimages
  layers : tree.layers = all.map (List.map (nodeText keccak_256))
  root : tree.root = nodeText keccak_256 top

theorem findDuplicate_eq_none {texts : List Text} (h : texts.Nodup) :
    findDuplicate texts = none := by
  fun_induction findDuplicate texts with
  | case1 a rest => simp at h
  | case2 a b rest hne ih => exact ih h.of_cons
  | case3 => rfl

theorem assertLeafHashes_ok (index : Nat) {texts : List Text}
    (h : ∀ text ∈ texts, isBytes32 text = true) : assertLeafHashes index texts = .ok () := by
  induction texts generalizing index with
  | nil => rfl
  | cons text texts ih =>
    have htail := ih (index + 1) fun other hother => h other (List.mem_cons_of_mem text hother)
    rw [assertLeafHashes, assertBytes32, if_pos (h text List.mem_cons_self)]
    exact htail

/-- From distinct hashes of 32 bytes the tree is built, and mirrors hash trees. -/
theorem exists_mirrors {preimages : List Bytes} (hne : preimages ≠ [])
    (hdistinct : (preimages.map (leafText keccak_256)).Nodup) :
    ∃ tree all top, buildMerkleTree keccak_256 (preimages.map (leafText keccak_256)) = .ok tree ∧
      Mirrors keccak_256 tree preimages all top := by
  have hlength : (sortedLeaves keccak_256 preimages).length = preimages.length := by
    simp [sortedLeaves]
  have hsorted : sortedLeaves keccak_256 preimages ≠ [] := by
    rw [← List.length_pos_iff, hlength]
    exact List.length_pos_iff.mpr hne
  have hbytes : ∀ text ∈ preimages.map (leafText keccak_256), isBytes32 text = true := by
    intro text htext
    obtain ⟨preimage, -, rfl⟩ := List.mem_map.mp htext
    exact isBytes32_bytesToHex _
  have hfresh : ((preimages.map (leafText keccak_256)).insertionSort (· ≤ ·)).Nodup :=
    (List.perm_insertionSort _ _).nodup_iff.mpr hdistinct
  obtain ⟨top, hgrows⟩ := HashTree.exists_growsTo preimages.length hsorted (by omega)
  obtain ⟨above, habove⟩ := HashTree.exists_layers_eq_cons preimages.length
    (sortedLeaves keccak_256 preimages)
  refine ⟨{
    root := nodeText keccak_256 top
    layers := (HashTree.layers preimages.length (sortedLeaves keccak_256 preimages)).map
      (List.map (nodeText keccak_256))
    leafCount := preimages.length }, _, top, ?_, hgrows, by rw [habove]; rfl, rfl, rfl⟩
  have hlayers := layersFrom_map keccak_256 preimages.length (sortedLeaves keccak_256 preimages)
  rw [map_nodeText_sortedLeaves] at hlayers
  have hcount : preimages.length ≠ 0 := fun h => hne (List.length_eq_zero_iff.mp h)
  have htop := hgrows.getLastD_map (nodeText keccak_256)
  simp only [buildMerkleTree, List.length_map, if_neg hcount, assertLeafHashes_ok 0 hbytes,
    findDuplicate_eq_none hfresh, hlayers, bind, Except.bind, htop, List.length_insertionSort,
    List.headD_cons]

end Keccak

end MpcRegistry.Canonical
