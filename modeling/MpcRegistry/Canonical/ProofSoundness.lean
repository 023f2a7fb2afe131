import MpcRegistry.Canonical.JcsRoundTrip
import MpcRegistry.Canonical.Leaf
import MpcRegistry.Canonical.MerkleForest

/-!
# Inclusion proofs are sound

A proof that leads a leaf's hash to a batch root is the batch's own proof of that
leaf, and the leaf is one of the batch's, unless two byte strings hashed on the
way have one Keccak-256. A leaf hash is taken of 32 bytes and a node of 64, so
neither can pass for the other.
-/
namespace MpcRegistry.Canonical
open Library Library.Outcome

section Inputs

variable (keccak_256 : Bytes → Digest)

/-- What `hashLeaf` hashes. -/
def leafInputs (leaf : RegistryLeaf) : List Bytes :=
  match canonicalBytes leaf.toValue with
  | .ok bytes => [bytes, (keccak_256 bytes).val]
  | .error _ => []

/-- What one round over a layer hashes. -/
def layerInputs : List Text → List Bytes
  | left :: right :: rest => (pairBytes left right).toOption.toList ++ layerInputs rest
  | _ => []

/-- What `verifyMerkleProof` hashes. -/
def proofInputs : Text → List Text → List Bytes
  | _, [] => []
  | computed, node :: proof =>
    match pairBytes computed node with
    | .ok bytes => bytes :: proofInputs (keccak256 keccak_256 bytes) proof
    | .error _ => []

/-- Every byte string hashed for the batch, for the leaf and along its proof. -/
def hashedInputs (leaves : List RegistryLeaf) (tree : MerkleTree) (leaf : RegistryLeaf)
    (leafHash : Text) (proof : List Text) : List Bytes :=
  leaves.flatMap (leafInputs keccak_256) ++ tree.layers.flatMap layerInputs ++
    leafInputs keccak_256 leaf ++ proofInputs keccak_256 leafHash proof

variable {keccak_256}

section Members

variable {leaves : List RegistryLeaf} {tree : MerkleTree} {leaf : RegistryLeaf}
  {leafHash : Text} {proof : List Text}

theorem mem_hashedInputs_of_member {member : RegistryLeaf} {bytes : Bytes} (h : member ∈ leaves)
    (hbytes : canonicalBytes member.toValue = .ok bytes) :
    bytes ∈ hashedInputs keccak_256 leaves tree leaf leafHash proof ∧
      (keccak_256 bytes).val ∈ hashedInputs keccak_256 leaves tree leaf leafHash proof := by
  have hin : leafInputs keccak_256 member ⊆ leaves.flatMap (leafInputs keccak_256) :=
    fun input hinput => List.mem_flatMap.mpr ⟨member, h, hinput⟩
  rw [leafInputs, hbytes] at hin
  simp only [hashedInputs, List.mem_append]
  exact ⟨.inl (.inl (.inl (hin (by simp)))), .inl (.inl (.inl (hin (by simp))))⟩

theorem mem_hashedInputs_of_leaf {bytes : Bytes}
    (hbytes : canonicalBytes leaf.toValue = .ok bytes) :
    bytes ∈ hashedInputs keccak_256 leaves tree leaf leafHash proof ∧
      (keccak_256 bytes).val ∈ hashedInputs keccak_256 leaves tree leaf leafHash proof := by
  simp [hashedInputs, leafInputs, hbytes]

theorem layerInputs_subset : tree.layers.flatMap layerInputs ⊆
    hashedInputs keccak_256 leaves tree leaf leafHash proof := by
  intro input hinput
  simp only [hashedInputs, List.mem_append]
  exact .inl (.inl (.inr hinput))

theorem proofInputs_subset : proofInputs keccak_256 leafHash proof ⊆
    hashedInputs keccak_256 leaves tree leaf leafHash proof :=
  List.subset_append_right _ _

end Members

/-- A leaf hash is the hash of the 32 bytes the canonical bytes hash to. -/
theorem exists_of_hashLeaf {leaf : RegistryLeaf} {leafHash : Text}
    (h : hashLeaf keccak_256 leaf = .ok leafHash) :
    ∃ bytes, canonicalBytes leaf.toValue = .ok bytes ∧
      leafHash = leafText keccak_256 (keccak_256 bytes).val := by
  obtain ⟨_, -, h⟩ := bind_ok.mp h
  obtain ⟨bytes, hbytes, h⟩ := bind_ok.mp h
  obtain ⟨inner, hinner, h⟩ := bind_ok.mp h
  rw [keccak256, hexToBytes_bytesToHex, Except.ok.injEq] at hinner
  subst hinner
  exact ⟨bytes, hbytes, (Except.ok.inj h).symm⟩

/-- The hashes of a batch come from as many 32-byte strings, one a leaf. -/
theorem exists_preimages {leaves : List RegistryLeaf} {hashes : List Text}
    (h : List.Forall₂ (fun leaf leafHash => hashLeaf keccak_256 leaf = .ok leafHash)
      leaves hashes) :
    ∃ preimages : List Bytes, preimages.length = leaves.length ∧
      hashes = preimages.map (leafText keccak_256) ∧
      ∀ preimage ∈ preimages, ∃ leaf ∈ leaves, ∃ bytes,
        canonicalBytes leaf.toValue = .ok bytes ∧ preimage = (keccak_256 bytes).val := by
  induction h with
  | nil => exact ⟨[], rfl, rfl, by simp⟩
  | @cons leaf leafHash leaves hashes hleaf _ ih =>
    obtain ⟨bytes, hbytes, rfl⟩ := exists_of_hashLeaf hleaf
    obtain ⟨preimages, hlength, rfl, hfrom⟩ := ih
    refine ⟨(keccak_256 bytes).val :: preimages, by simp [hlength], rfl, ?_⟩
    intro preimage hpreimage
    rcases List.mem_cons.mp hpreimage with rfl | hpreimage
    · exact ⟨leaf, List.mem_cons_self, bytes, hbytes, rfl⟩
    · obtain ⟨member, hmember, found⟩ := hfrom preimage hpreimage
      exact ⟨member, List.mem_cons_of_mem leaf hmember, found⟩

theorem exists_digests {proof : List Text} (h : ∀ node ∈ proof, isBytes32 node = true) :
    ∃ digests : List Digest, proof = digests.map fun digest => bytesToHex digest.val := by
  induction proof with
  | nil => exact ⟨[], rfl⟩
  | cons node proof ih =>
    obtain ⟨digest, rfl⟩ := exists_of_isBytes32 (h node List.mem_cons_self)
    obtain ⟨digests, rfl⟩ := ih fun other hother => h other (List.mem_cons_of_mem _ hother)
    exact ⟨digest :: digests, rfl⟩

theorem layerInputs_map (trees : List (HashTree Bytes)) :
    layerInputs (trees.map (nodeText keccak_256)) =
      HashTree.pairInputs keccak_256 combineDigests trees := by
  fun_induction HashTree.pairInputs keccak_256 combineDigests trees with
  | case1 left right rest ih =>
    simp only [List.map_cons, layerInputs, nodeText, pairBytes_bytesToHex, ← ih]
    rfl
  | case2 trees hnot =>
    rcases trees with _ | ⟨left, _ | ⟨right, rest⟩⟩
    · rfl
    · rfl
    · exact absurd rfl (hnot left right rest)

theorem proofInputs_map (start : Digest) (digests : List Digest) :
    proofInputs keccak_256 (bytesToHex start.val)
        (digests.map fun digest => bytesToHex digest.val) =
      HashTree.climbInputs keccak_256 combineDigests start digests := by
  induction digests generalizing start with
  | nil => rfl
  | cons digest digests ih =>
    simp only [List.map_cons, proofInputs, pairBytes_bytesToHex, HashTree.climbInputs]
    exact congrArg _ (ih _)

end Inputs

section Keccak

variable {keccak_256 : Bytes → Digest} {tree : MerkleTree} {preimages : List Bytes}
  {all : List (List (HashTree Bytes))} {top : HashTree Bytes}

theorem Mirrors.leaves_eq (h : Mirrors keccak_256 tree preimages all top) :
    top.leaves = preimages.insertionSort fun a b =>
      leafText keccak_256 a ≤ leafText keccak_256 b := by
  rw [h.grows.leaves_eq, h.bottom, sortedLeaves, List.flatMap_map]
  simp [HashTree.leaves]

theorem idxOf?_of_nodup {texts : List Text} (hnodup : texts.Nodup) {index : Nat} {text : Text}
    (h : texts[index]? = some text) : texts.idxOf? text = some index := by
  obtain ⟨hlt, htext⟩ := List.getElem?_eq_some_iff.mp h
  refine List.idxOf?_eq_some_iff.mpr ⟨hlt, htext, fun j hj heq => ?_⟩
  have hsame := (hnodup.getElem_inj_iff).mp (heq.trans htext.symm)
  omega

/-- `getMerkleProof` returns the hash tree's path of a leaf. -/
theorem Mirrors.getMerkleProof_eq (h : Mirrors keccak_256 tree preimages all top)
    (hdistinct : (preimages.map (leafText keccak_256)).Nodup) {preimage : Bytes}
    {digests : List Digest} (hpath : (preimage, digests) ∈ top.paths keccak_256 combineDigests) :
    getMerkleProof tree (leafText keccak_256 preimage) =
      .ok (digests.map fun digest => bytesToHex digest.val) := by
  obtain ⟨index, start, below, hstart, hbelow, hsiblings⟩ := h.grows.path_eq hpath
  have hbottom : tree.layers.headD [] =
      (sortedLeaves keccak_256 preimages).map (nodeText keccak_256) := by
    rw [h.layers, ← h.bottom]
    cases all <;> rfl
  have hnodup : (tree.layers.headD []).Nodup := by
    rw [hbottom, map_nodeText_sortedLeaves]
    exact (List.perm_insertionSort _ _).nodup_iff.mpr hdistinct
  have htext : (tree.layers.headD [])[index]? = some (nodeText keccak_256 start) := by
    rw [hbottom, List.getElem?_map, ← h.bottom, hstart, Option.map_some]
  rw [h.bottom, sortedLeaves, List.getElem?_map] at hstart
  obtain ⟨own, -, rfl⟩ := Option.map_eq_some_iff.mp hstart
  simp only [HashTree.paths, List.mem_singleton, Prod.mk.injEq] at hbelow
  obtain ⟨rfl, rfl⟩ := hbelow
  have hlayers : tree.layers = (all.map (List.map (HashTree.root keccak_256 combineDigests))).map
      (List.map fun digest => bytesToHex digest.val) := by
    rw [h.layers, List.map_map]
    refine List.map_congr_left fun layer _ => ?_
    rw [Function.comp_apply, List.map_map]
    rfl
  have hindex : (tree.layers.headD []).idxOf? (leafText keccak_256 preimage) = some index :=
    idxOf?_of_nodup hnodup htext
  rw [List.nil_append] at hsiblings
  simp only [getMerkleProof, hindex]
  rw [proofFrom_eq_siblings, hlayers, HashTree.siblings_map, ← hsiblings]

/-- What the tree hashes for its nodes is hashed for some layer. -/
theorem Mirrors.nodeInputs_subset (h : Mirrors keccak_256 tree preimages all top) :
    top.nodeInputs keccak_256 combineDigests ⊆ tree.layers.flatMap layerInputs := by
  intro input hinput
  have hfrom := h.grows.nodeInputs_subset hinput
  rw [h.bottom, List.mem_append] at hfrom
  rcases hfrom with hleaf | hlayer
  · simp [sortedLeaves, HashTree.nodeInputs] at hleaf
  · obtain ⟨layer, hlayer, hpair⟩ := List.mem_flatMap.mp hlayer
    rw [h.layers, List.flatMap_map]
    exact List.mem_flatMap.mpr ⟨layer, hlayer, by rwa [layerInputs_map]⟩

/-- The bytes of a pair are no leaf's: they are twice as long. -/
theorem ne_combineDigests {preimage : Bytes} (h : preimage.length = 32) (a b : Digest) :
    preimage ≠ combineDigests a b := by
  rintro rfl
  rw [length_combineDigests] at h
  omega

/-- A proof that verifies is the tree's own path, unless inputs collide. -/
theorem Mirrors.mem_paths_of_verify (h : Mirrors keccak_256 tree preimages all top)
    (hlengths : ∀ preimage ∈ preimages, preimage.length = 32) {inputs : List Bytes}
    (hsafe : ¬ Collides keccak_256 inputs) (hleaves : preimages ⊆ inputs)
    (hlayers : tree.layers.flatMap layerInputs ⊆ inputs) {preimage : Bytes}
    (hlength : preimage.length = 32) (hmem : preimage ∈ inputs) {digests : List Digest}
    (hproof : proofInputs keccak_256 (leafText keccak_256 preimage)
      (digests.map fun digest => bytesToHex digest.val) ⊆ inputs)
    (hverify : verifyMerkleProof keccak_256 (leafText keccak_256 preimage)
      (digests.map fun digest => bytesToHex digest.val) tree.root = .ok true) :
    (preimage, digests) ∈ top.paths keccak_256 combineDigests := by
  have hsorted : ∀ own ∈ top.leaves, own ∈ preimages := fun own hown =>
    (List.mem_insertionSort _).mp (h.leaves_eq ▸ hown)
  have hroot : HashTree.climb keccak_256 combineDigests (keccak_256 preimage) digests =
      top.root keccak_256 combineDigests := by
    rw [verifyMerkleProof, leafText, climbProof_map, h.root] at hverify
    have htext := of_decide_eq_true (Except.ok.inj hverify)
    exact Subtype.ext (bytesToHex_injective htext)
  rw [leafText, proofInputs_map] at hproof
  exact HashTree.mem_paths_of_climb combineDigests_cases hsafe
    (fun own hown => hleaves (hsorted own hown))
    (List.Subset.trans h.nodeInputs_subset hlayers)
    (fun own hown => ne_combineDigests (hlengths own (hsorted own hown)))
    hmem (ne_combineDigests hlength) hproof hroot

/-- Whatever proof leads the hash of a valid leaf to the root of a batch, it is
the batch's own proof of that leaf hash, and the leaf has the canonical form of
one of the batch's leaves, or two byte strings hashed on the way collide. -/
theorem verified_leaf_in_batch (keccak_256 : Bytes → Digest) {leaves : List RegistryLeaf}
    {hashes : List Text} (hne : leaves ≠ [])
    (hhashes : leaves.mapM (hashLeaf keccak_256) = .ok hashes) (hdistinct : hashes.Nodup) :
    ∃ tree, buildMerkleTree keccak_256 hashes = .ok tree ∧
      ∀ leaf leafHash proof, hashLeaf keccak_256 leaf = .ok leafHash →
        (∀ node ∈ proof, isBytes32 node = true) →
        verifyMerkleProof keccak_256 leafHash proof tree.root = .ok true →
        ((∃ member ∈ leaves, canonicalize member.toValue = canonicalize leaf.toValue) ∧
          getMerkleProof tree leafHash = .ok proof) ∨
        Collides keccak_256 (hashedInputs keccak_256 leaves tree leaf leafHash proof) := by
  obtain ⟨preimages, hlength, rfl, hfrom⟩ := exists_preimages (mapM_ok hhashes)
  have hsome : preimages ≠ [] := by
    rw [← List.length_pos_iff, hlength]
    exact List.length_pos_iff.mpr hne
  obtain ⟨tree, all, top, hbuild, hmirrors⟩ := exists_mirrors keccak_256 hsome hdistinct
  refine ⟨tree, hbuild, fun leaf leafHash proof hleaf hnodes hverify => ?_⟩
  obtain ⟨bytes, hbytes, rfl⟩ := exists_of_hashLeaf hleaf
  obtain ⟨digests, rfl⟩ := exists_digests hnodes
  refine or_iff_not_imp_right.mpr fun hsafe => ?_
  have hpath := hmirrors.mem_paths_of_verify
    (fun preimage hpreimage => by
      obtain ⟨_, _, found, _, rfl⟩ := hfrom preimage hpreimage
      exact (keccak_256 found).property)
    hsafe
    (fun preimage hpreimage => by
      obtain ⟨member, hmember, found, hfound, rfl⟩ := hfrom preimage hpreimage
      exact (mem_hashedInputs_of_member hmember hfound).2)
    layerInputs_subset (keccak_256 bytes).property (mem_hashedInputs_of_leaf hbytes).2
    proofInputs_subset hverify
  refine ⟨?_, hmirrors.getMerkleProof_eq hdistinct hpath⟩
  -- the proven leaf's preimage is one of the batch's
  have hleafMem := HashTree.mem_leaves_of_mem_paths hpath
  rw [hmirrors.leaves_eq, List.mem_insertionSort] at hleafMem
  obtain ⟨member, hmember, found, hfound, hinner⟩ := hfrom _ hleafMem
  have hsame : bytes = found := eq_of_not_collides hsafe (mem_hashedInputs_of_leaf hbytes).1
    (mem_hashedInputs_of_member hmember hfound).1 (Subtype.ext hinner)
  exact ⟨member, hmember, canonicalize_eq_of_bytes hfound (hsame ▸ hbytes)⟩

end Keccak

section Golden

/-- A digest as one big-endian number. -/
def digestOf (value : Nat) : Digest :=
  ⟨(List.range 32).map fun i => UInt8.ofNat (value / 256 ^ (31 - i)), by simp⟩

def goldenLeaf (registryType entryVersionId subjectId version status schemaVersion
    contentHash : String) : RegistryLeaf where
  registryType := units registryType
  entryVersionId := units entryVersionId
  subjectId := units subjectId
  version := units version
  status := units status
  serializationVersion := units "1"
  policyVersion := units "mn-core-1.0.0"
  schemaVersion := units schemaVersion
  contentHash := units contentHash

def goldenProject : RegistryLeaf :=
  goldenLeaf "project" "01JZPROJECT0000000000000AA" "01JZSUBJECT0000000000000AA" "1" "published"
    "project-registry-1" "0x8a763859277f764edf67dffa392d3eec76cde965a789233d15731441e01187f9"

def goldenVerification : RegistryLeaf :=
  goldenLeaf "verification" "01JZVERIFY00000000000000AA" "01JZSUBJECT0000000000000AA" "2"
    "published" "verification-registry-1"
    "0x806cc025d19798defc05a10d7d062b242aaa1b7ff606ec76b9b33cce7342dd9f"

def goldenSuperseded : RegistryLeaf :=
  goldenLeaf "verification" "01JZVERIFY00000000000000BB" "01JZSUBJECT0000000000000BB" "1"
    "superseded" "verification-registry-1"
    "0x81f08954620d3ae470d635a349646b1ae33d12f358e07b2764835b410750ebd8"

def goldenLeaves : List RegistryLeaf := [goldenProject, goldenVerification, goldenSuperseded]

/-- Keccak-256 on the eight byte strings hashed for the batch of
packages/canonical/test/vectors.json; length and first byte tell them apart. -/
def goldenKeccak (input : Bytes) : Digest :=
  match input.length, (input.headD 0).toNat with
  | 327, _ => digestOf 0x68b56682e52f1240ffb6cdf286dcfaabccecedb2c2268bcb62da4d1fbb527454
  | 337, _ => digestOf 0x8fef812dcee94a944c322a723b01caba7485274d86733c4e2b8a4deb636213db
  | 338, _ => digestOf 0x998c78c431117583f2e2ff343167dda258b23238beefc9f751c2ee56109a277e
  | 32, 0x68 => digestOf 0x62a6f13e1a21498f57d53fa72f0e9dd0580bea3d1da2ef4ef79ac796cfdb1fa3
  | 32, 0x8f => digestOf 0xd9223f2db4cc421d279c2043ce0da0a1f067648110e78d06b1dd9f2cd063e921
  | 32, 0x99 => digestOf 0xf459bb689062007f3aa1cc2b4f489828349789fce84ddc83c7bad5882feedfed
  | 64, 0x62 => digestOf 0xa1f3ef96b937f329a88b5bda67acd9e18a8e280ac648d3a415cb643bd227c378
  | 64, 0xa1 => digestOf 0xf5017ce8e1264b5a597a8c1c0f21c7a29467d6aee85f062d0b55c6e640a6c5d1
  | _, _ => digestOf 0

def goldenHashes : List Text := [
  units "0x62a6f13e1a21498f57d53fa72f0e9dd0580bea3d1da2ef4ef79ac796cfdb1fa3",
  units "0xd9223f2db4cc421d279c2043ce0da0a1f067648110e78d06b1dd9f2cd063e921",
  units "0xf459bb689062007f3aa1cc2b4f489828349789fce84ddc83c7bad5882feedfed"]

def goldenTree : MerkleTree where
  root := units "0xf5017ce8e1264b5a597a8c1c0f21c7a29467d6aee85f062d0b55c6e640a6c5d1"
  layers := [goldenHashes,
    [units "0xa1f3ef96b937f329a88b5bda67acd9e18a8e280ac648d3a415cb643bd227c378",
      units "0xf459bb689062007f3aa1cc2b4f489828349789fce84ddc83c7bad5882feedfed"],
    [units "0xf5017ce8e1264b5a597a8c1c0f21c7a29467d6aee85f062d0b55c6e640a6c5d1"]]
  leafCount := 3

/-- On the golden batch, whose third leaf is promoted once, that leaf's proof of
one node verifies, so it is what `getMerkleProof` returns. -/
theorem verified_leaf_in_batch_golden :
    verifyMerkleProof goldenKeccak
        (units "0xf459bb689062007f3aa1cc2b4f489828349789fce84ddc83c7bad5882feedfed")
        [units "0xa1f3ef96b937f329a88b5bda67acd9e18a8e280ac648d3a415cb643bd227c378"]
        goldenTree.root = .ok true ∧
      (((∃ member ∈ goldenLeaves,
          canonicalize member.toValue = canonicalize goldenSuperseded.toValue) ∧
        getMerkleProof goldenTree
            (units "0xf459bb689062007f3aa1cc2b4f489828349789fce84ddc83c7bad5882feedfed") =
          .ok [units "0xa1f3ef96b937f329a88b5bda67acd9e18a8e280ac648d3a415cb643bd227c378"]) ∨
      Collides goldenKeccak (hashedInputs goldenKeccak goldenLeaves goldenTree goldenSuperseded
        (units "0xf459bb689062007f3aa1cc2b4f489828349789fce84ddc83c7bad5882feedfed")
        [units "0xa1f3ef96b937f329a88b5bda67acd9e18a8e280ac648d3a415cb643bd227c378"])) := by
  have hhashes : goldenLeaves.mapM (hashLeaf goldenKeccak) = .ok goldenHashes := by
    decide +kernel
  have htree : buildMerkleTree goldenKeccak goldenHashes = .ok goldenTree := by decide +kernel
  have hverify : verifyMerkleProof goldenKeccak
      (units "0xf459bb689062007f3aa1cc2b4f489828349789fce84ddc83c7bad5882feedfed")
      [units "0xa1f3ef96b937f329a88b5bda67acd9e18a8e280ac648d3a415cb643bd227c378"]
      goldenTree.root = .ok true := by
    decide +kernel
  have hleaf : hashLeaf goldenKeccak goldenSuperseded =
      .ok (units "0xf459bb689062007f3aa1cc2b4f489828349789fce84ddc83c7bad5882feedfed") := by
    decide +kernel
  obtain ⟨tree, hbuild, hsound⟩ :=
    verified_leaf_in_batch goldenKeccak (List.cons_ne_nil _ _) hhashes (by decide +kernel)
  obtain rfl : goldenTree = tree := Except.ok.inj (htree.symm.trans hbuild)
  exact ⟨hverify, hsound _ _ _ hleaf (by decide +kernel) hverify⟩

end Golden

end MpcRegistry.Canonical
